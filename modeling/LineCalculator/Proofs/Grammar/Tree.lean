import LineCalculator.Expression.Reading
import LineCalculator.Proofs.Grammar.Numeral
/-! # Syntax trees of expressions

    expression := term (("+" | "-") term)*
    term       := factor (("*" | "/") factor)*
    factor     := ("+" | "-") factor | "(" expression ")" | number | variable | function factor

A tree is a derivation of this grammar. A repetition stands as a chain that grows to the right, so
folding it from the left is recursion on the tree.

* `SumTree`, `TermTree`, `FactorTree`: the trees of the three kinds of phrases.
* `lexemes`: the lexemes of a phrase from left to right; `Lexeme.text` is how one is spelled.
* `depth`: how many factors are open at once where most are, the number or variable at the end
  included.
* `value`: the value under a valuation of the names. Only a function can refuse.
-/

namespace LineCalculator.Expression
set_option autoImplicit false

mutual
/-- A chain of terms that are added and subtracted. -/
inductive SumTree where
  | term (t : TermTree)
  | add (e : SumTree) (s : Sign) (t : TermTree)
/-- A chain of factors that are multiplied and divided. -/
inductive TermTree where
  | factor (x : FactorTree)
  | scale (t : TermTree) (o : Scale) (x : FactorTree)
inductive FactorTree where
  | sign (s : Sign) (x : FactorTree)
  | group (e : SumTree)
  | number (n : Numeral)
  | name (name : String)
  | call (f : Builtin) (x : FactorTree)
end

/-! ## Lexemes -/

inductive Lexeme where
  /-- A sign, an operator or a parenthesis. -/
  | mark (c : Char)
  | numeral (n : Numeral)
  /-- The name of a variable. -/
  | name (name : String)
  /-- The name of a function that is applied. -/
  | function (f : Builtin)

def Lexeme.text : Lexeme → List Char
  | mark c => [c]
  | numeral n => n.text
  | name a => a.toList
  | function f => f.name.toList

def Sign.mark : Sign → Lexeme
  | plus => .mark '+'
  | minus => .mark '-'

def Scale.mark : Scale → Lexeme
  | times => .mark '*'
  | .over => .mark '/'

mutual
def SumTree.lexemes : SumTree → List Lexeme
  | .term t => t.lexemes
  | .add e s t => e.lexemes ++ s.mark :: t.lexemes
def TermTree.lexemes : TermTree → List Lexeme
  | .factor x => x.lexemes
  | .scale t o x => t.lexemes ++ o.mark :: x.lexemes
def FactorTree.lexemes : FactorTree → List Lexeme
  | .sign s x => s.mark :: x.lexemes
  | .group e => .mark '(' :: (e.lexemes ++ [.mark ')'])
  | .number n => [.numeral n]
  | .name a => [.name a]
  | .call f x => .function f :: x.lexemes
end

/-- A mark is one of the six that the grammar has. -/
def Lexeme.Proper : Lexeme → Prop
  | mark c => c ∈ ['+', '-', '*', '/', '(', ')']
  | _ => True

theorem Sign.proper_mark (s : Sign) : s.mark.Proper := by
  cases s <;> simp [Sign.mark, Lexeme.Proper]

theorem Scale.proper_mark (o : Scale) : o.mark.Proper := by
  cases o <;> simp [Scale.mark, Lexeme.Proper]

mutual
theorem SumTree.proper_lexemes (e : SumTree) : ∀ l ∈ e.lexemes, l.Proper := by
  cases e with
  | term t => exact t.proper_lexemes
  | add e s t =>
    simp only [SumTree.lexemes, List.forall_mem_append, List.forall_mem_cons]
    exact ⟨e.proper_lexemes, s.proper_mark, t.proper_lexemes⟩
theorem TermTree.proper_lexemes (t : TermTree) : ∀ l ∈ t.lexemes, l.Proper := by
  cases t with
  | factor x => exact x.proper_lexemes
  | scale t o x =>
    simp only [TermTree.lexemes, List.forall_mem_append, List.forall_mem_cons]
    exact ⟨t.proper_lexemes, o.proper_mark, x.proper_lexemes⟩
theorem FactorTree.proper_lexemes (x : FactorTree) : ∀ l ∈ x.lexemes, l.Proper := by
  cases x with
  | sign s x => exact List.forall_mem_cons.2 ⟨s.proper_mark, x.proper_lexemes⟩
  | group e =>
    simp only [FactorTree.lexemes, List.forall_mem_cons, List.forall_mem_append]
    exact ⟨by simp [Lexeme.Proper], e.proper_lexemes, by simp [Lexeme.Proper], by simp⟩
  | number n => simp [FactorTree.lexemes, Lexeme.Proper]
  | name a => simp [FactorTree.lexemes, Lexeme.Proper]
  | call f x => exact List.forall_mem_cons.2 ⟨trivial, x.proper_lexemes⟩
end

/-! ## Depth -/

mutual
def SumTree.depth : SumTree → Nat
  | .term t => t.depth
  | .add e _ t => max e.depth t.depth
def TermTree.depth : TermTree → Nat
  | .factor x => x.depth
  | .scale t _ x => max t.depth x.depth
def FactorTree.depth : FactorTree → Nat
  | .sign _ x => x.depth + 1
  | .group e => e.depth + 1
  | .number _ => 1
  | .name _ => 1
  | .call _ x => x.depth + 1
end

theorem FactorTree.depth_pos (x : FactorTree) : 0 < x.depth := by
  cases x <;> simp [FactorTree.depth]

theorem TermTree.depth_pos (t : TermTree) : 0 < t.depth := by
  cases t with
  | factor x => exact x.depth_pos
  | scale t o x => exact Nat.lt_of_lt_of_le x.depth_pos (Nat.le_max_right _ _)

theorem SumTree.depth_pos (e : SumTree) : 0 < e.depth := by
  cases e with
  | term t => exact t.depth_pos
  | add e s t => exact Nat.lt_of_lt_of_le t.depth_pos (Nat.le_max_right _ _)

/-! ## Value -/

mutual
def SumTree.value (v : String → Float) : SumTree → Logged DomainError Float
  | .term t => t.value v
  | .add e s t => (e.value v).bind fun x => (t.value v).bind fun y => .value (s.combine x y)
def TermTree.value (v : String → Float) : TermTree → Logged DomainError Float
  | .factor x => x.value v
  | .scale t o x => (t.value v).bind fun y => (x.value v).bind fun z => .value (o.combine y z)
def FactorTree.value (v : String → Float) : FactorTree → Logged DomainError Float
  | .sign s x => (x.value v).bind fun y => .value (s.ofOperand y)
  | .group e => e.value v
  | .number n => .value n.decimal.toFloat
  | .name a => .value (v a)
  | .call f x => (x.value v).bind f.apply
end

end LineCalculator.Expression

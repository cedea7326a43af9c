import LineCalculator.Proofs.Grammar.Tree
import Mathlib.Data.List.Chain
/-! # Factors in the stead of variables

* `instantiate σ`: the tree with the factor `σ a` in the stead of the variable `a`.
* `lexemes_instantiate`, `value_instantiate`: the same for its lexemes and its value.
* `isChain_lexemes`: after a number or a variable there is a mark, if anything.
-/

namespace LineCalculator.Expression
set_option autoImplicit false

/-! ## Instantiation -/

mutual
def SumTree.instantiate (σ : String → FactorTree) : SumTree → SumTree
  | .term t => .term (t.instantiate σ)
  | .add e s t => .add (e.instantiate σ) s (t.instantiate σ)
def TermTree.instantiate (σ : String → FactorTree) : TermTree → TermTree
  | .factor x => .factor (x.instantiate σ)
  | .scale t o x => .scale (t.instantiate σ) o (x.instantiate σ)
def FactorTree.instantiate (σ : String → FactorTree) : FactorTree → FactorTree
  | .sign s x => .sign s (x.instantiate σ)
  | .group e => .group (e.instantiate σ)
  | .number n => .number n
  | .name a => σ a
  | .call f x => .call f (x.instantiate σ)
end

def Lexeme.instantiate (σ : String → FactorTree) : Lexeme → List Lexeme
  | .name a => (σ a).lexemes
  | l => [l]

section Instantiate
variable (σ : String → FactorTree)

theorem Sign.instantiate_mark (s : Sign) : s.mark.instantiate σ = [s.mark] := by
  cases s <;> rfl

theorem Scale.instantiate_mark (o : Scale) : o.mark.instantiate σ = [o.mark] := by
  cases o <;> rfl

mutual
theorem SumTree.lexemes_instantiate (e : SumTree) :
    (e.instantiate σ).lexemes = e.lexemes.flatMap (Lexeme.instantiate σ) := by
  cases e with
  | term t => exact t.lexemes_instantiate
  | add e s t =>
    rw [SumTree.instantiate, SumTree.lexemes, SumTree.lexemes, e.lexemes_instantiate,
      t.lexemes_instantiate, List.flatMap_append, List.flatMap_cons, s.instantiate_mark]
    rfl
theorem TermTree.lexemes_instantiate (t : TermTree) :
    (t.instantiate σ).lexemes = t.lexemes.flatMap (Lexeme.instantiate σ) := by
  cases t with
  | factor x => exact x.lexemes_instantiate
  | scale t o x =>
    rw [TermTree.instantiate, TermTree.lexemes, TermTree.lexemes, t.lexemes_instantiate,
      x.lexemes_instantiate, List.flatMap_append, List.flatMap_cons, o.instantiate_mark]
    rfl
theorem FactorTree.lexemes_instantiate (x : FactorTree) :
    (x.instantiate σ).lexemes = x.lexemes.flatMap (Lexeme.instantiate σ) := by
  cases x with
  | sign s x =>
    rw [FactorTree.instantiate, FactorTree.lexemes, FactorTree.lexemes, x.lexemes_instantiate,
      List.flatMap_cons, s.instantiate_mark]
    rfl
  | group e =>
    rw [FactorTree.instantiate, FactorTree.lexemes, FactorTree.lexemes, e.lexemes_instantiate,
      List.flatMap_cons, List.flatMap_append]
    rfl
  | number n => rfl
  | name a =>
    rw [FactorTree.instantiate, FactorTree.lexemes, List.flatMap_singleton]
    rfl
  | call f x =>
    rw [FactorTree.instantiate, FactorTree.lexemes, FactorTree.lexemes, x.lexemes_instantiate,
      List.flatMap_cons]
    rfl
end

variable {σ} {v w : String → Float}

mutual
theorem SumTree.value_instantiate (h : ∀ a, (σ a).value v = .value (w a)) (e : SumTree) :
    (e.instantiate σ).value v = e.value w := by
  cases e with
  | term t => exact t.value_instantiate h
  | add e s t =>
    rw [SumTree.instantiate, SumTree.value, SumTree.value, e.value_instantiate h]
    simp only [t.value_instantiate h]
theorem TermTree.value_instantiate (h : ∀ a, (σ a).value v = .value (w a)) (t : TermTree) :
    (t.instantiate σ).value v = t.value w := by
  cases t with
  | factor x => exact x.value_instantiate h
  | scale t o x =>
    rw [TermTree.instantiate, TermTree.value, TermTree.value, t.value_instantiate h]
    simp only [x.value_instantiate h]
theorem FactorTree.value_instantiate (h : ∀ a, (σ a).value v = .value (w a)) (x : FactorTree) :
    (x.instantiate σ).value v = x.value w := by
  cases x with
  | sign s x =>
    rw [FactorTree.instantiate, FactorTree.value, FactorTree.value, x.value_instantiate h]
  | group e => exact e.value_instantiate h
  | number n => rfl
  | name a => exact h a
  | call f x =>
    rw [FactorTree.instantiate, FactorTree.value, FactorTree.value, x.value_instantiate h]
end

end Instantiate

/-! ## Neighbouring lexemes -/

def Lexeme.IsMark : Lexeme → Prop
  | .mark _ => True
  | _ => False

/-- What may directly follow a lexeme: after a number or a variable only a mark. -/
def Lexeme.MayPrecede : Lexeme → Lexeme → Prop
  | .numeral _, l => l.IsMark
  | .name _, l => l.IsMark
  | _, _ => True

theorem Sign.isMark_mark (s : Sign) : s.mark.IsMark := by cases s <;> trivial

theorem Scale.isMark_mark (o : Scale) : o.mark.IsMark := by cases o <;> trivial

theorem Lexeme.mayPrecede_of_isMark {m : Lexeme} (l : Lexeme) (h : m.IsMark) : l.MayPrecede m := by
  cases l with
  | mark c => trivial
  | numeral n => exact h
  | name a => exact h
  | function f => trivial

theorem Lexeme.IsMark.mayPrecede {m : Lexeme} (h : m.IsMark) (l : Lexeme) : m.MayPrecede l := by
  cases m with
  | mark c => trivial
  | numeral n => cases h
  | name a => cases h
  | function f => cases h

/-- Two rows with a mark between them. -/
theorem isChain_append_mark {ls ls' : List Lexeme} {m : Lexeme} (h : ls.IsChain Lexeme.MayPrecede)
    (hm : m.IsMark) (h' : ls'.IsChain Lexeme.MayPrecede) :
    (ls ++ m :: ls').IsChain Lexeme.MayPrecede := by
  refine List.isChain_append.2 ⟨h, List.isChain_cons.2 ⟨fun l _ => hm.mayPrecede l, h'⟩, ?_⟩
  intro x _ y hy
  cases hy
  exact Lexeme.mayPrecede_of_isMark x hm

mutual
theorem SumTree.isChain_lexemes (e : SumTree) : e.lexemes.IsChain Lexeme.MayPrecede := by
  cases e with
  | term t => exact t.isChain_lexemes
  | add e s t => exact isChain_append_mark e.isChain_lexemes s.isMark_mark t.isChain_lexemes
theorem TermTree.isChain_lexemes (t : TermTree) : t.lexemes.IsChain Lexeme.MayPrecede := by
  cases t with
  | factor x => exact x.isChain_lexemes
  | scale t o x => exact isChain_append_mark t.isChain_lexemes o.isMark_mark x.isChain_lexemes
theorem FactorTree.isChain_lexemes (x : FactorTree) : x.lexemes.IsChain Lexeme.MayPrecede := by
  cases x with
  | sign s x => exact isChain_append_mark .nil s.isMark_mark x.isChain_lexemes
  | group e =>
    exact isChain_append_mark .nil trivial (isChain_append_mark e.isChain_lexemes trivial .nil)
  | number n => exact .singleton _
  | name a => exact .singleton _
  | call f x => exact List.isChain_cons.2 ⟨fun l _ => trivial, x.isChain_lexemes⟩
end

end LineCalculator.Expression

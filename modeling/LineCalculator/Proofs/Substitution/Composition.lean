import LineCalculator.Proofs.Grammar.Composite
import LineCalculator.Proofs.Grammar.Limit
import LineCalculator.Proofs.Substitution.Mention
import LineCalculator.Proofs.Substitution.Parentheses
/-! # Expressions made of expressions

An expression in parentheses is one factor with the value of the expression, whatever text it is:
parentheses and operators are in no word, so that the bound names in it are the same, and they run
together with nothing, so that its tokens are.

* `Operator`: one of the four operators, with its character and what it computes.
* `grouped expression`, `joined op a b`: an expression in parentheses, and two of them with an
  operator between them.
* `FillsNesting env expression`: the expression opens as many factors as the reader admits.
* `evaluate_of_tokens`: the value of an expression whose tokens are those of a tree of any depth.
* `evaluate_joined`: the value of what is put together, from the values of the parts.
-/

namespace LineCalculator.Substitution
set_option autoImplicit false
open Text Expression

/-! ## Operators -/

inductive Operator where
  | sum (s : Sign)
  | product (o : Scale)

namespace Operator

def char : Operator → Char
  | sum .plus => '+'
  | sum .minus => '-'
  | product .times => '*'
  | product .over => '/'

def combine : Operator → Float → Float → Float
  | sum s => s.combine
  | product o => o.combine

def mark : Operator → Lexeme
  | sum s => s.mark
  | product o => o.mark

/-- The tree of two factors with the operator between them. -/
def join : Operator → FactorTree → FactorTree → SumTree
  | sum s, x, y => .add (.term (.factor x)) s (.factor y)
  | product o, x, y => .term (.scale (.factor x) o y)

theorem text_mark (op : Operator) : op.mark.text = [op.char] := by
  cases op with
  | sum s => cases s <;> rfl
  | product o => cases o <;> rfl

theorem resolved_mark (op : Operator) (env : Environment) : op.mark.Resolved env := by
  cases op with
  | sum s => exact s.resolved_mark
  | product o => exact o.resolved_mark

theorem proper_mark (op : Operator) : op.mark.Proper := by
  cases op with
  | sum s => exact s.proper_mark
  | product o => exact o.proper_mark

theorem isWord_char (op : Operator) : isWord op.char = false := by
  cases op with
  | sum s => cases s <;> decide
  | product o => cases o <;> decide

theorem tokenKind_char (op : Operator) : tokenKind op.char = none := by
  cases op with
  | sum s => cases s <;> decide
  | product o => cases o <;> decide

section
variable (op : Operator) (x y : FactorTree)

theorem lexemes_join : (op.join x y).lexemes = x.lexemes ++ op.mark :: y.lexemes := by
  cases op <;> rfl

theorem depth_join : (op.join x y).depth = max x.depth y.depth := by
  cases op <;> rfl

theorem value_join {v : String → Float} {a b : Float} (hx : (x.value v).result = .ok a)
    (hy : (y.value v).result = .ok b) : ((op.join x y).value v).result = .ok (op.combine a b) := by
  have hlast (f : Float → Float → Float) : ((x.value v).bind fun a =>
      (y.value v).bind fun b => .value (f a b)).result = .ok (f a b) :=
    Logged.result_bind_eq_ok.2 ⟨a, hx, Logged.result_bind_eq_ok.2 ⟨b, hy, rfl⟩⟩
  cases op with
  | sum s => exact hlast s.combine
  | product o => exact hlast o.combine

end

end Operator

/-! ## Texts -/

def grouped (expression : String) : String := "(" ++ expression ++ ")"

def joined (op : Operator) (a b : String) : String :=
  grouped a ++ String.singleton op.char ++ grouped b

theorem toList_grouped (expression : String) :
    (grouped expression).toList = '(' :: (expression.toList ++ [')']) := by
  simp [grouped]

theorem toList_joined (op : Operator) (a b : String) :
    (joined op a b).toList = (grouped a).toList ++ op.char :: (grouped b).toList := by
  simp [joined]

variable {env : Environment} {expression a b : String} {v x y : Float}

/-! ## Values -/

/-- The tokens are those of a tree, however deep. -/
theorem evaluate_of_tokens [PatternCompiler] {e : SumTree} (hsearch : Searchable env)
    (htext : tokenTexts (substitute env expression.toList) = e.lexemes.map Lexeme.text)
    (hr : ∀ l ∈ e.lexemes, l.Resolved env) (hv : (e.value env.lookup).result = .ok v) :
    (evaluate env expression).result = .ok v ∨
      FailsTooDeep (evaluate env expression) ∧ maxOpenFactors < e.depth := by
  have hspelled := (spells_iff.2 htext).1
  by_cases hd : e.depth ≤ maxOpenFactors
  · exact .inl (evaluate_eq_ok_iff.2 ⟨hsearch, read_of_depth_le hspelled hr hv hd⟩)
  · have hdeep := Nat.not_le.1 hd
    obtain ⟨position, -, h⟩ := read_of_maxOpenFactors_lt hspelled hr hv hdeep
    have herror := evaluate_eq_error_iff.2 (.inr ⟨hsearch, _, h, rfl⟩)
    exact .inr ⟨⟨_, position, herror, rfl⟩, hdeep⟩

/-- The expression has a derivation that opens as many factors as are admitted. -/
def FillsNesting (env : Environment) (expression : String) : Prop :=
  ∃ e : SumTree, e.Derives env (substitute env expression.toList) ∧ e.depth = maxOpenFactors

section Parts
variable {e e' : SumTree} (he : e.Derives env (substitute env a.toList))
  (hx : (e.value env.lookup).result = .ok x)
include he

theorem tokenTexts_grouped : tokenTexts (substitute env (grouped a).toList) =
    (FactorTree.group e).lexemes.map Lexeme.text := by
  rw [toList_grouped, substitute_group, tokenTexts_group he.tokenTexts_eq]

theorem fillsNesting_of_lt (h : maxOpenFactors < (FactorTree.group e).depth) :
    FillsNesting env a := by
  rw [FactorTree.depth] at h
  exact ⟨e, he, Nat.le_antisymm he.depth_le (Nat.le_of_lt_succ h)⟩

include hx

theorem evaluate_grouped [PatternCompiler] (hsearch : Searchable env) :
    (evaluate env (grouped a)).result = .ok x ∨
    FailsTooDeep (evaluate env (grouped a)) ∧ FillsNesting env a := by
  have htext : tokenTexts (substitute env (grouped a).toList) =
      (SumTree.term (.factor (.group e))).lexemes.map Lexeme.text := tokenTexts_grouped he
  rcases evaluate_of_tokens hsearch htext (resolved_group he.resolved) hx with h | ⟨h, hd⟩
  · exact .inl h
  · exact .inr ⟨h, fillsNesting_of_lt he hd⟩

end Parts

theorem tokenTexts_joined {e e' : SumTree} (op : Operator)
    (he : e.Derives env (substitute env a.toList))
    (he' : e'.Derives env (substitute env b.toList)) :
    tokenTexts (substitute env (joined op a b).toList) =
      (op.join (.group e) (.group e')).lexemes.map Lexeme.text := by
  have hopen : Apart tokenKind (substitute env (grouped a).toList)
      (op.char :: substitute env (grouped b).toList) := Apart.before_char _ _ op.tokenKind_char
  have hclose : Apart tokenKind op.mark.text (substitute env (grouped b).toList) := by
    rw [op.text_mark]
    exact Apart.after_char [] _ op.tokenKind_char
  have hmark : IsWord op.mark.text := Lexeme.isWord op.proper_mark (op.resolved_mark env)
  rw [toList_joined, substitute_append_cons env _ _ op.isWord_char, tokenTexts_append hopen,
    ← List.singleton_append, ← op.text_mark, tokenTexts_word_append hmark hclose,
    tokenTexts_grouped he, tokenTexts_grouped he', Operator.lexemes_join, List.map_append]
  rfl

/-- An expression in parentheses has the value of the expression, and two of them with an operator
between them have what the operator makes of the two values, unless one of the expressions already
opens as many factors as the reader admits, so that the parentheses nest too deeply. -/
theorem evaluate_joined [PatternCompiler] (ha : (evaluate env a).result = .ok x) :
    ((evaluate env (grouped a)).result = .ok x ∨
      FailsTooDeep (evaluate env (grouped a)) ∧ FillsNesting env a) ∧
    ∀ op b y, (evaluate env b).result = .ok y →
      (evaluate env (joined op a b)).result = .ok (op.combine x y) ∨
        FailsTooDeep (evaluate env (joined op a b)) ∧
          (FillsNesting env a ∨ FillsNesting env b) := by
  obtain ⟨hsearch, hread⟩ := evaluate_eq_ok_iff.1 ha
  obtain ⟨e, he, hx⟩ := exists_derives_of_read hread
  refine ⟨evaluate_grouped he hx hsearch, fun op b y hb => ?_⟩
  obtain ⟨e', he', hy⟩ := exists_derives_of_read (evaluate_eq_ok_iff.1 hb).2
  have hr : ∀ l ∈ (op.join (.group e) (.group e')).lexemes, l.Resolved env := by
    rw [Operator.lexemes_join, List.forall_mem_append, List.forall_mem_cons]
    exact ⟨resolved_group he.resolved, op.resolved_mark env, resolved_group he'.resolved⟩
  rcases evaluate_of_tokens hsearch (tokenTexts_joined op he he') hr (op.value_join _ _ hx hy)
    with h | ⟨h, hd⟩
  · exact .inl h
  · rw [Operator.depth_join, lt_max_iff] at hd
    exact .inr ⟨h, hd.imp (fillsNesting_of_lt he) (fillsNesting_of_lt he')⟩

attribute [local instance] PatternCompiler.bySize in
/-- The sign of a value and the spaces at the ends of the parts are of no account. -/
theorem evaluate_joined_quotient :
    (evaluate (.ofList [("x", -3)]) "2 - x ").result = .ok 5 ∧
      (evaluate (.ofList [("x", -3)]) " x+1").result = .ok (-2) ∧
      (evaluate (.ofList [("x", -3)]) "(2 - x )/( x+1)").result = .ok (-2.5) := by
  have ha : (evaluate (.ofList [("x", -3)]) "2 - x ").result = .ok 5 := by decide +kernel
  have hb : (evaluate (.ofList [("x", -3)]) " x+1").result = .ok (-2) := by decide +kernel
  have hquotient : Scale.over.combine 5 (-2) = -2.5 := by decide +kernel
  have h := (evaluate_joined ha).2 (.product .over) _ _ hb
  rw [Operator.combine, hquotient] at h
  refine ⟨ha, hb, h.resolve_right ?_⟩
  rintro ⟨htooDeep, -⟩
  have hshallow : reading (.ofList [("x", -3)]) (joined (.product .over) "2 - x " " x+1") ≠
      .tooDeep := by decide +kernel
  exact hshallow (failsTooDeep_iff.1 htooDeep).2

end LineCalculator.Substitution

import LineCalculator.Proofs.Environment
import LineCalculator.Proofs.Grammar.Spelling
import LineCalculator.Proofs.Grammar.Tree
import Mathlib
/-! # Reading the lexemes of a tree

The reader is run on the tokens of a syntax tree, by recursion on the tree. A factor that is read
where an operand is due supplies its value there, a term completes the term of its level, and a sum
completes a fresh level, with the events and refusals of the tree's value.

* `Lexeme.Resolved env l`: if `l` is the name of a variable, it is one that the reader looks up.
* `SumTree.run_eq`, `TermTree.run_eq`, `FactorTree.run_eq`: the state after a phrase.
* `read_eq_value`: the value of a text that consists of the tokens of a tree.
-/

namespace LineCalculator.Expression
set_option autoImplicit false
open Text

/-- A name is looked up when it is lowercase, no function and bound. -/
def Lexeme.Resolved (env : Environment) : Lexeme → Prop
  | .name a => (∀ c ∈ a.toList, c.isLower = true) ∧ Builtin.ofName? a = none ∧
      env.contains a = true
  | _ => True

/-! ## Single tokens -/

theorem Run.eq_of_text_eq {r : Run} {c : Char} {more : List Char} (h : r.text = c :: more) :
    r = ⟨c, more⟩ := by
  cases r
  cases h
  rfl

theorem tokenKind_of_isNumeralChar {c : Char} (h : Decimal.isNumeralChar c = true) :
    tokenKind c = some .numeral := by
  simp [tokenKind, h]

theorem isNumeralChar_of_isLower {c : Char} (h : c.isLower = true) :
    Decimal.isNumeralChar c = false := by
  simp only [Char.isLower, Bool.and_eq_true, decide_eq_true_eq, Decimal.isNumeralChar,
    Char.isDigit, Bool.or_eq_false_iff, decide_eq_false_iff_not, Bool.and_eq_false_imp] at h ⊢
  refine ⟨fun _ => ?_, ?_⟩
  · rw [UInt32.not_le]
    exact UInt32.lt_of_lt_of_le (by decide) h.1
  · rintro rfl
    exact absurd h.1 (by decide)

theorem tokenKind_of_isLower {c : Char} (h : c.isLower = true) : tokenKind c = some .word := by
  simp [tokenKind, h, isNumeralChar_of_isLower h]

variable {env : Environment}

theorem first_ne_of_tokenKind {t : Token} {k : TokenKind} (h : tokenKind t.run.first = some k)
    {c : Char} (hc : tokenKind c = none) : t.run.first ≠ c := by
  rintro rfl
  rw [hc] at h
  cases h

theorem readOperand_numeral {level : Level} {outer : List Level} {t : Token} {d : Decimal}
    (h : tokenKind t.run.first = some .numeral) (hd : Decimal.read? t.run.text = some d) :
    readOperand env level outer t = level.supply outer d.toFloat := by
  rw [readOperand, if_neg (first_ne_of_tokenKind h (by decide)),
    if_neg (first_ne_of_tokenKind h (by decide)), if_neg (first_ne_of_tokenKind h (by decide))]
  simp only [h, hd]

theorem readOperand_function {level : Level} {outer : List Level} {t : Token} {a : String}
    {f : Builtin} (h : tokenKind t.run.first = some .word) (ha : t.run.text = a.toList)
    (hf : Builtin.ofName? a = some f) :
    readOperand env level outer t = State.descend (level.await (.call f)) outer t.stop := by
  rw [readOperand, if_neg (first_ne_of_tokenKind h (by decide)),
    if_neg (first_ne_of_tokenKind h (by decide)), if_neg (first_ne_of_tokenKind h (by decide))]
  simp only [h, ha, String.ofList_toList, hf]

theorem readOperand_name {level : Level} {outer : List Level} {t : Token} {a : String} {x : Float}
    (h : tokenKind t.run.first = some .word) (ha : t.run.text = a.toList)
    (hf : Builtin.ofName? a = none) (hx : env.get? a = some x) :
    readOperand env level outer t = level.supply outer x := by
  rw [readOperand, if_neg (first_ne_of_tokenKind h (by decide)),
    if_neg (first_ne_of_tokenKind h (by decide)), if_neg (first_ne_of_tokenKind h (by decide))]
  simp only [h, ha, String.ofList_toList, hf, hx]

theorem ofName?_name (f : Builtin) : Builtin.ofName? f.name = some f := by
  cases f <;> decide

theorem isLower_of_mem_name (f : Builtin) : ∀ c ∈ f.name.toList, c.isLower = true := by
  cases f <;> decide

theorem name_toList_ne_nil (f : Builtin) : f.name.toList ≠ [] := by
  cases f <;> decide

theorem text_of_ofName? {text : List Char} {f : Builtin}
    (h : Builtin.ofName? (String.ofList text) = some f) : (Lexeme.function f).text = text := by
  have hname : f.name = String.ofList text := by simpa using List.find?_some h
  rw [Lexeme.text, hname, String.toList_ofList]

/-! ### Where an operand is due -/

section Due
variable {level : Level} {outer : List Level} {t : Token}

theorem step_sign {s : Sign} (h : t.run.text = s.mark.text) :
    (State.due level outer).step env t = State.descend (level.await (.sign s)) outer t.stop := by
  cases s <;> simp [State.step, readOperand, Run.eq_of_text_eq h]

theorem step_open (h : t.run.text = (Lexeme.mark '(').text) :
    (State.due level outer).step env t = State.descend .fresh (level :: outer) t.stop := by
  simp [State.step, readOperand, Run.eq_of_text_eq h]

theorem step_numeral {n : Numeral} (h : t.run.text = n.text) :
    (State.due level outer).step env t = level.supply outer n.decimal.toFloat := by
  have hc : Decimal.isNumeralChar t.run.first = true :=
    n.isNumeral.1 _ (h ▸ by simp [Run.text])
  exact readOperand_numeral (tokenKind_of_isNumeralChar hc) (h ▸ n.read?_text)

theorem step_name {a : String} (h : t.run.text = a.toList) (hr : (Lexeme.name a).Resolved env) :
    (State.due level outer).step env t = level.supply outer (env.lookup a) := by
  obtain ⟨hlower, hf, hb⟩ := hr
  have hc : t.run.first.isLower = true := hlower _ (h ▸ by simp [Run.text])
  exact readOperand_name (tokenKind_of_isLower hc) h hf (env.get?_eq_some_lookup hb)

theorem step_function {f : Builtin} (h : t.run.text = f.name.toList) :
    (State.due level outer).step env t = State.descend (level.await (.call f)) outer t.stop := by
  have hc : t.run.first.isLower = true := isLower_of_mem_name f _ (h ▸ by simp [Run.text])
  exact readOperand_function (tokenKind_of_isLower hc) h (ofName?_name f)

end Due

/-! ### After a term -/

section Complete
variable {sum : Option (Float × Sign)} {term : Float} {outer : List Level} {t : Token}

theorem step_add {s : Sign} (h : t.run.text = s.mark.text) :
    (State.complete sum term outer).step env t =
      .value (.due ⟨some (total sum term, s), none, []⟩ outer) := by
  cases s <;> simp [State.step, readOperator, Run.eq_of_text_eq h]

theorem step_scale {o : Scale} (h : t.run.text = o.mark.text) :
    (State.complete sum term outer).step env t =
      .value (.due ⟨sum, some (term, o), []⟩ outer) := by
  cases o <;> simp [State.step, readOperator, Run.eq_of_text_eq h]

theorem step_close {level : Level} (h : t.run.text = (Lexeme.mark ')').text) :
    (State.complete sum term (level :: outer)).step env t =
      level.supply outer (total sum term) := by
  simp [State.step, readOperator, Run.eq_of_text_eq h]

end Complete

/-! ## Levels -/

theorem openFactors_await (level : Level) (outer : List Level) (w : Waiting) :
    openFactors (level.await w) outer = openFactors level outer + 1 := by
  simp [openFactors, Level.await]
  omega

theorem openFactors_fresh_cons (level : Level) (outer : List Level) :
    openFactors .fresh (level :: outer) = openFactors level outer + 1 := by
  simp only [openFactors, Level.fresh, outside, List.length_nil]
  omega

theorem descend_eq {level : Level} {outer : List Level} (position : Nat)
    (h : openFactors level outer < maxOpenFactors) :
    State.descend level outer position = .value (.due level outer) :=
  if_neg (Nat.not_le.2 h)

theorem supply_await (level : Level) (outer : List Level) (w : Waiting) (x : Float) :
    (level.await w).supply outer x =
      ((w.apply x).mapError .domain).bind (level.supply outer) := by
  simp only [Level.supply, Level.await, Waiting.applyAll, Logged.mapError_bind, Logged.bind_assoc]
  rfl

/-! ## Phrases -/

/-- What a sum is before its last term is added: the value of the others with the sign after them,
and the value of the last. -/
def SumTree.parts (v : String → Float) :
    SumTree → Logged DomainError (Option (Float × Sign) × Float)
  | .term t => (t.value v).bind fun y => .value (none, y)
  | .add e s t => (e.value v).bind fun x => (t.value v).bind fun y => .value (some (x, s), y)

theorem SumTree.value_eq_parts (v : String → Float) (e : SumTree) :
    e.value v = (e.parts v).bind fun p => .value (total p.1 p.2) := by
  cases e with
  | term t =>
    simp only [value, parts, Logged.bind_assoc, Logged.value_bind, total]
    exact (Logged.bind_value _).symm
  | add e s t => simp only [value, parts, Logged.bind_assoc, Logged.value_bind, total]

/-- A list whose image is two lists with an element between them. -/
theorem exists_of_map_eq_append_cons {α β : Type} {f : α → β} {l : List α} {as bs : List β} {b : β}
    (h : l.map f = as ++ b :: bs) :
    ∃ l₁ a l₂, l = l₁ ++ a :: l₂ ∧ l₁.map f = as ∧ f a = b ∧ l₂.map f = bs := by
  obtain ⟨l₁, l', rfl, h₁, h'⟩ := List.map_eq_append_iff.1 h
  obtain ⟨a, l₂, rfl, ha, h₂⟩ := List.map_eq_cons_iff.1 h'
  exact ⟨l₁, a, l₂, rfl, h₁, ha, h₂⟩

mutual
theorem SumTree.run_eq (e : SumTree) {outer : List Level} {ts : List Token}
    (hts : ts.map (fun t => t.run.text) = e.lexemes.map Lexeme.text)
    (hr : ∀ l ∈ e.lexemes, l.Resolved env)
    (hd : openFactors .fresh outer + e.depth ≤ maxOpenFactors) :
    (State.due .fresh outer).run env ts =
      ((e.parts env.lookup).mapError .domain).bind fun p => .value (.complete p.1 p.2 outer) := by
  cases e with
  | term t =>
    have h : (State.due .fresh outer).run env ts = _ := TermTree.run_eq t hts hr hd
    rw [h]
    simp only [SumTree.parts, Logged.mapError_bind, Logged.bind_assoc, Logged.mapError_value,
      Logged.value_bind]
  | add e s t =>
    simp only [SumTree.lexemes, List.map_append, List.map_cons] at hts
    obtain ⟨ts₁, u, ts₂, rfl, h₁, hu, h₂⟩ := exists_of_map_eq_append_cons hts
    simp only [SumTree.lexemes, List.forall_mem_append, List.forall_mem_cons] at hr
    simp only [SumTree.depth] at hd
    rw [State.run_append, SumTree.run_eq e h₁ hr.1 (by omega)]
    simp only [SumTree.parts, e.value_eq_parts, Logged.mapError_bind, Logged.bind_assoc,
      Logged.mapError_value, Logged.value_bind, State.run_cons, step_add hu]
    congr 1
    funext p
    exact TermTree.run_eq t h₂ hr.2.2 (show openFactors .fresh outer + t.depth ≤ _ by omega)

theorem TermTree.run_eq (t : TermTree) {sum : Option (Float × Sign)} {outer : List Level}
    {ts : List Token} (hts : ts.map (fun t => t.run.text) = t.lexemes.map Lexeme.text)
    (hr : ∀ l ∈ t.lexemes, l.Resolved env)
    (hd : openFactors ⟨sum, none, []⟩ outer + t.depth ≤ maxOpenFactors) :
    (State.due ⟨sum, none, []⟩ outer).run env ts =
      ((t.value env.lookup).mapError .domain).bind fun y => .value (.complete sum y outer) := by
  cases t with
  | factor x => exact FactorTree.run_eq x hts hr hd
  | scale t o x =>
    simp only [TermTree.lexemes, List.map_append, List.map_cons] at hts
    obtain ⟨ts₁, u, ts₂, rfl, h₁, hu, h₂⟩ := exists_of_map_eq_append_cons hts
    simp only [TermTree.lexemes, List.forall_mem_append, List.forall_mem_cons] at hr
    simp only [TermTree.depth] at hd
    rw [State.run_append, TermTree.run_eq t h₁ hr.1 (by omega)]
    simp only [TermTree.value, Logged.mapError_bind, Logged.bind_assoc, Logged.mapError_value,
      Logged.value_bind, State.run_cons, step_scale hu]
    congr 1
    funext y
    exact FactorTree.run_eq x h₂ hr.2.2
      (show openFactors ⟨sum, none, []⟩ outer + x.depth ≤ _ by omega)

theorem FactorTree.run_eq (x : FactorTree) {level : Level} {outer : List Level} {ts : List Token}
    (hts : ts.map (fun t => t.run.text) = x.lexemes.map Lexeme.text)
    (hr : ∀ l ∈ x.lexemes, l.Resolved env)
    (hd : openFactors level outer + x.depth ≤ maxOpenFactors) :
    (State.due level outer).run env ts =
      ((x.value env.lookup).mapError .domain).bind (level.supply outer) := by
  cases x with
  | sign s x =>
    obtain ⟨u, us, rfl, hu, hus⟩ := List.map_eq_cons_iff.1 hts
    have hx := x.depth_pos
    have ho := openFactors_await level outer (.sign s)
    simp only [FactorTree.depth] at hd
    rw [State.run_cons, step_sign hu, descend_eq _ (by omega), Logged.value_bind,
      FactorTree.run_eq x hus (List.forall_mem_cons.1 hr).2 (by omega)]
    simp only [FactorTree.value, Logged.mapError_bind, Logged.bind_assoc]
    exact congrArg _ (funext fun y => supply_await level outer _ y)
  | group e =>
    obtain ⟨u, us, rfl, hu, hus⟩ := List.map_eq_cons_iff.1 hts
    rw [List.map_append] at hus
    obtain ⟨ts₁, w, ws, rfl, h₁, hw, hws⟩ := exists_of_map_eq_append_cons hus
    obtain rfl := List.map_eq_nil_iff.1 hws
    have ho := openFactors_fresh_cons level outer
    have he := e.depth_pos
    simp only [FactorTree.depth] at hd
    simp only [FactorTree.lexemes, List.forall_mem_append, List.forall_mem_cons] at hr
    rw [State.run_cons, step_open hu, descend_eq _ (by omega), Logged.value_bind,
      State.run_append, SumTree.run_eq e h₁ hr.2.1 (by omega)]
    simp only [FactorTree.value, e.value_eq_parts, Logged.mapError_bind, Logged.bind_assoc,
      Logged.mapError_value, Logged.value_bind, State.run_cons, step_close hw, State.run_nil,
      Logged.bind_value]
  | number n =>
    obtain ⟨u, us, rfl, hu, hus⟩ := List.map_eq_cons_iff.1 hts
    obtain rfl := List.map_eq_nil_iff.1 hus
    rw [State.run_cons, step_numeral hu]
    exact Logged.bind_value _
  | name a =>
    obtain ⟨u, us, rfl, hu, hus⟩ := List.map_eq_cons_iff.1 hts
    obtain rfl := List.map_eq_nil_iff.1 hus
    rw [State.run_cons, step_name hu (hr _ List.mem_cons_self)]
    exact Logged.bind_value _
  | call f x =>
    obtain ⟨u, us, rfl, hu, hus⟩ := List.map_eq_cons_iff.1 hts
    have hx := x.depth_pos
    have ho := openFactors_await level outer (.call f)
    simp only [FactorTree.depth] at hd
    rw [State.run_cons, step_function hu, descend_eq _ (by omega), Logged.value_bind,
      FactorTree.run_eq x hus (List.forall_mem_cons.1 hr).2 (by omega)]
    simp only [FactorTree.value, Logged.mapError_bind, Logged.bind_assoc]
    exact congrArg _ (funext fun y => supply_await level outer _ y)
end

/-- A text that consists of the tokens of a tree has the tree's value. -/
theorem read_eq_value {e : SumTree} {text : List Char}
    (htext : tokenTexts text = e.lexemes.map Lexeme.text)
    (hr : ∀ l ∈ e.lexemes, l.Resolved env) (hd : e.depth ≤ maxOpenFactors) :
    read env text = (e.value env.lookup).mapError .domain := by
  have h : State.start.run env (tokens text) = _ :=
    SumTree.run_eq e htext hr ((Nat.zero_add _).trans_le hd)
  rw [read, h]
  simp only [e.value_eq_parts, Logged.mapError_bind, Logged.bind_assoc, Logged.mapError_value,
    Logged.value_bind, State.finish]

end LineCalculator.Expression

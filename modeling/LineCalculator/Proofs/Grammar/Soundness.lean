import LineCalculator.Proofs.Grammar.Completeness
/-! # What was read is a derivation

Whatever state the reader is in, the tokens it has read so far are the beginning of a derivation,
whose finished phrases have the values that the state keeps.

* `IsFactor env d ls y`, `IsTerm`, `IsSum`: the lexemes `ls` are a phrase of that kind with the
  value `y`, which may stand inside `d` open factors.
* `StateRead env s ls`: the lexemes `ls` lead to the state `s`.
* `StateRead.step`: one more token is one more lexeme.
* `StateRead.run`: so are all tokens of a text.
-/

namespace LineCalculator.Expression
set_option autoImplicit false
open Text

variable {env : Environment} {d : Nat} {ls ls' : List Lexeme} {y z : Float}

/-! ## Phrases with their values -/

def IsFactor (env : Environment) (d : Nat) (ls : List Lexeme) (y : Float) : Prop :=
  ∃ x : FactorTree, x.lexemes = ls ∧ (∀ l ∈ x.lexemes, l.Resolved env) ∧
    d + x.depth ≤ maxOpenFactors ∧ (x.value env.lookup).result = .ok y

def IsTerm (env : Environment) (d : Nat) (ls : List Lexeme) (y : Float) : Prop :=
  ∃ t : TermTree, t.lexemes = ls ∧ (∀ l ∈ t.lexemes, l.Resolved env) ∧
    d + t.depth ≤ maxOpenFactors ∧ (t.value env.lookup).result = .ok y

def IsSum (env : Environment) (d : Nat) (ls : List Lexeme) (y : Float) : Prop :=
  ∃ e : SumTree, e.lexemes = ls ∧ (∀ l ∈ e.lexemes, l.Resolved env) ∧
    d + e.depth ≤ maxOpenFactors ∧ (e.value env.lookup).result = .ok y

theorem Sign.resolved_mark (s : Sign) : s.mark.Resolved env := by
  cases s <;> trivial

theorem Scale.resolved_mark (o : Scale) : o.mark.Resolved env := by
  cases o <;> trivial

theorem resolved_group {e : SumTree} (h : ∀ l ∈ e.lexemes, l.Resolved env) :
    ∀ l ∈ (FactorTree.group e).lexemes, l.Resolved env := by
  refine List.forall_mem_cons.2 ⟨trivial, List.forall_mem_append.2 ⟨h, ?_⟩⟩
  exact List.forall_mem_singleton.2 trivial

theorem IsFactor.number (n : Numeral) (hd : d < maxOpenFactors) :
    IsFactor env d [.numeral n] n.decimal.toFloat :=
  ⟨.number n, rfl, by simp [FactorTree.lexemes, Lexeme.Resolved], hd, rfl⟩

theorem IsFactor.name {a : String} (h : (Lexeme.name a).Resolved env) (hd : d < maxOpenFactors) :
    IsFactor env d [.name a] (env.lookup a) :=
  ⟨.name a, rfl, by simpa [FactorTree.lexemes] using h, hd, rfl⟩

theorem IsFactor.sign (s : Sign) (h : IsFactor env (d + 1) ls y) :
    IsFactor env d (s.mark :: ls) (s.ofOperand y) := by
  obtain ⟨x, rfl, hr, hd, hy⟩ := h
  refine ⟨.sign s x, rfl, List.forall_mem_cons.2 ⟨s.resolved_mark, hr⟩, ?_, ?_⟩
  · rw [FactorTree.depth]
    omega
  · exact Logged.result_bind_eq_ok.2 ⟨y, hy, rfl⟩

theorem IsFactor.call {f : Builtin} (h : IsFactor env (d + 1) ls y)
    (hz : (f.apply y).result = .ok z) : IsFactor env d (.function f :: ls) z := by
  obtain ⟨x, rfl, hr, hd, hy⟩ := h
  refine ⟨.call f x, rfl, List.forall_mem_cons.2 ⟨trivial, hr⟩, ?_, ?_⟩
  · rw [FactorTree.depth]
    omega
  · exact Logged.result_bind_eq_ok.2 ⟨y, hy, hz⟩

theorem IsFactor.group (h : IsSum env (d + 1) ls y) :
    IsFactor env d (.mark '(' :: (ls ++ [.mark ')'])) y := by
  obtain ⟨e, rfl, hr, hd, hy⟩ := h
  refine ⟨.group e, rfl, resolved_group hr, ?_, hy⟩
  rw [FactorTree.depth]
  omega

theorem IsTerm.factor (h : IsFactor env d ls y) : IsTerm env d ls y := by
  obtain ⟨x, rfl, hr, hd, hy⟩ := h
  exact ⟨.factor x, rfl, hr, hd, hy⟩

theorem IsTerm.scale (o : Scale) (ht : IsTerm env d ls y) (hx : IsFactor env d ls' z) :
    IsTerm env d (ls ++ o.mark :: ls') (o.combine y z) := by
  obtain ⟨t, rfl, hrt, hdt, hy⟩ := ht
  obtain ⟨x, rfl, hrx, hdx, hz⟩ := hx
  refine ⟨.scale t o x, rfl, ?_, ?_, ?_⟩
  · exact List.forall_mem_append.2 ⟨hrt, List.forall_mem_cons.2 ⟨o.resolved_mark, hrx⟩⟩
  · rw [TermTree.depth]
    omega
  · exact Logged.result_bind_eq_ok.2 ⟨y, hy, Logged.result_bind_eq_ok.2 ⟨z, hz, rfl⟩⟩

theorem IsSum.term (h : IsTerm env d ls y) : IsSum env d ls y := by
  obtain ⟨t, rfl, hr, hd, hy⟩ := h
  exact ⟨.term t, rfl, hr, hd, hy⟩

theorem IsSum.add (s : Sign) (he : IsSum env d ls y) (ht : IsTerm env d ls' z) :
    IsSum env d (ls ++ s.mark :: ls') (s.combine y z) := by
  obtain ⟨e, rfl, hre, hde, hy⟩ := he
  obtain ⟨t, rfl, hrt, hdt, hz⟩ := ht
  refine ⟨.add e s t, rfl, ?_, ?_, ?_⟩
  · exact List.forall_mem_append.2 ⟨hre, List.forall_mem_cons.2 ⟨s.resolved_mark, hrt⟩⟩
  · rw [SumTree.depth]
    omega
  · exact Logged.result_bind_eq_ok.2 ⟨y, hy, Logged.result_bind_eq_ok.2 ⟨z, hz, rfl⟩⟩

/-! ## Unfinished phrases -/

inductive SumPart (env : Environment) (d : Nat) : Option (Float × Sign) → List Lexeme → Prop where
  | none : SumPart env d none []
  | some (s : Sign) {ls : List Lexeme} {x : Float} (h : IsSum env d ls x) :
      SumPart env d (some (x, s)) (ls ++ [s.mark])

inductive ProductPart (env : Environment) (d : Nat) :
    Option (Float × Scale) → List Lexeme → Prop where
  | none : ProductPart env d none []
  | some (o : Scale) {ls : List Lexeme} {x : Float} (h : IsTerm env d ls x) :
      ProductPart env d (some (x, o)) (ls ++ [o.mark])

theorem SumPart.total {sum : Option (Float × Sign)} (hs : SumPart env d sum ls)
    (ht : IsTerm env d ls' y) : IsSum env d (ls ++ ls') (total sum y) := by
  cases hs with
  | none => exact IsSum.term ht
  | some s h =>
    rw [List.append_assoc]
    exact h.add s ht

theorem ProductPart.scaled {product : Option (Float × Scale)} (hp : ProductPart env d product ls)
    (hx : IsFactor env d ls' y) : IsTerm env d (ls ++ ls') (scaled product y) := by
  cases hp with
  | none => exact IsTerm.factor hx
  | some o h =>
    rw [List.append_assoc]
    exact h.scale o hx

def Waiting.lexeme : Waiting → Lexeme
  | sign s => s.mark
  | call f => .function f

theorem IsFactor.applyAll {ws : List Waiting} (h : IsFactor env (d + ws.length) ls y)
    (hz : (Waiting.applyAll ws y).result = .ok z) :
    IsFactor env d (ws.reverse.map Waiting.lexeme ++ ls) z := by
  induction ws generalizing ls y with
  | nil =>
    cases hz
    exact h
  | cons w ws ih =>
    obtain ⟨x, hx, hz⟩ := Logged.result_bind_eq_ok.1 hz
    have hw : IsFactor env (d + ws.length) (w.lexeme :: ls) x := by
      cases w with
      | sign s =>
        cases hx
        exact IsFactor.sign s h
      | call f => exact IsFactor.call h hx
    have := ih hw hz
    simpa using this

/-! ## Levels and states -/

theorem openFactors_eq (level : Level) (outer : List Level) :
    openFactors level outer = outside outer + level.waiting.length :=
  Nat.add_comm _ _

theorem outside_cons (level : Level) (outer : List Level) :
    outside (level :: outer) = openFactors level outer + 1 := by
  simp only [outside, openFactors]
  omega

inductive LevelRead (env : Environment) (d : Nat) : Level → List Lexeme → Prop where
  | mk {level : Level} {ls₁ ls₂ : List Lexeme} (hs : SumPart env d level.sum ls₁)
      (hp : ProductPart env d level.product ls₂) :
      LevelRead env d level (ls₁ ++ (ls₂ ++ level.waiting.reverse.map Waiting.lexeme))

inductive OuterRead (env : Environment) : List Level → List Lexeme → Prop where
  | nil : OuterRead env [] []
  | cons {level : Level} {outer : List Level} {ls₁ ls₂ : List Lexeme}
      (ho : OuterRead env outer ls₁) (hl : LevelRead env (outside outer) level ls₂) :
      OuterRead env (level :: outer) (ls₁ ++ (ls₂ ++ [.mark '(']))

/-- The lexemes read so far, as far as they are in the open levels, and the phrases they form. -/
inductive StateRead (env : Environment) : State → List Lexeme → Prop where
  | due {level : Level} {outer : List Level} {ls₁ ls₂ : List Lexeme}
      (ho : OuterRead env outer ls₁) (hl : LevelRead env (outside outer) level ls₂)
      (hd : openFactors level outer < maxOpenFactors) :
      StateRead env (.due level outer) (ls₁ ++ ls₂)
  | complete {sum : Option (Float × Sign)} {outer : List Level} {ls₁ ls₂ ls₃ : List Lexeme}
      {y : Float} (ho : OuterRead env outer ls₁) (hs : SumPart env (outside outer) sum ls₂)
      (ht : IsTerm env (outside outer) ls₃ y) :
      StateRead env (.complete sum y outer) (ls₁ ++ (ls₂ ++ ls₃))

theorem LevelRead.fresh : LevelRead env d .fresh [] := by
  have h : LevelRead env d .fresh ([] ++ ([] ++ [])) := .mk .none .none
  exact h

theorem StateRead.start : StateRead env .start [] :=
  .due .nil .fresh (by decide)

theorem LevelRead.operator {sum : Option (Float × Sign)} {product : Option (Float × Scale)}
    (hs : SumPart env d sum ls) (hp : ProductPart env d product ls') :
    LevelRead env d ⟨sum, product, []⟩ (ls ++ ls') := by
  have h : LevelRead env d ⟨sum, product, []⟩ (ls ++ (ls' ++ [])) := .mk hs hp
  simpa using h

theorem LevelRead.await {level : Level} (w : Waiting) (h : LevelRead env d level ls) :
    LevelRead env d (level.await w) (ls ++ [w.lexeme]) := by
  cases h with
  | mk hs hp =>
    have h' : LevelRead env d (level.await w)
        (_ ++ (_ ++ (w :: level.waiting).reverse.map Waiting.lexeme)) := .mk hs hp
    simpa using h'

/-- An operand completes the term of its level. -/
theorem StateRead.supply {level : Level} {outer : List Level} {ls₁ ls₂ ls₃ : List Lexeme}
    {s : State} (ho : OuterRead env outer ls₁) (hl : LevelRead env (outside outer) level ls₂)
    (hx : IsFactor env (openFactors level outer) ls₃ y)
    (hs : (level.supply outer y).result = .ok s) : StateRead env s (ls₁ ++ (ls₂ ++ ls₃)) := by
  obtain ⟨z, hz, hs⟩ := Logged.result_bind_eq_ok.1 hs
  cases hs
  cases hl with
  | mk hsum hp =>
    rw [openFactors_eq] at hx
    have hx' := hx.applyAll (Logged.result_mapError_eq_ok.1 hz)
    have h := StateRead.complete ho hsum (hp.scaled hx')
    simpa only [List.append_assoc] using h

/-! ## Reading a token -/

theorem isLower_of_tokenKind {c : Char} (h : tokenKind c = some .word) : c.isLower = true := by
  rw [tokenKind] at h
  split at h
  · cases h
  · split at h
    · assumption
    · cases h

theorem descend_ok {level : Level} {outer : List Level} {position : Nat} {s : State}
    (h : (State.descend level outer position).result = .ok s) :
    openFactors level outer < maxOpenFactors ∧ s = .due level outer := by
  rw [State.descend] at h
  split at h
  · cases h
  · rename_i hn
    cases h
    exact ⟨Nat.lt_of_not_le hn, rfl⟩

theorem text_eq_mark {t : Token} {c : Char} (hu : t.run.Uniform tokenKind)
    (hc : t.run.first = c) (hk : tokenKind c = none) : (Lexeme.mark c).text = t.run.text := by
  rw [hu.text_eq (hc ▸ hk), hc]
  rfl

theorem resolved_name {t : Token} {x : Float} (hu : t.run.Uniform tokenKind)
    (hk : tokenKind t.run.first = some .word)
    (hf : Builtin.ofName? (String.ofList t.run.text) = none)
    (hx : env.get? (String.ofList t.run.text) = some x) :
    (Lexeme.name (String.ofList t.run.text)).Resolved env := by
  refine ⟨?_, hf, Option.isSome_iff_exists.2 ⟨x, hx⟩⟩
  rw [String.toList_ofList]
  exact fun c hc => isLower_of_tokenKind (hu.kind_eq hk c hc)

theorem StateRead.readOperand {level : Level} {outer : List Level} {ls₁ ls₂ : List Lexeme}
    {t : Token} {s : State} (ho : OuterRead env outer ls₁)
    (hl : LevelRead env (outside outer) level ls₂) (hd : openFactors level outer < maxOpenFactors)
    (hu : t.run.Uniform tokenKind) (hs : (readOperand env level outer t).result = .ok s) :
    ∃ l : Lexeme, l.text = t.run.text ∧ StateRead env s (ls₁ ++ (ls₂ ++ [l])) := by
  rw [Expression.readOperand] at hs
  split at hs
  · rename_i hc
    obtain ⟨hd', rfl⟩ := descend_ok hs
    exact ⟨Sign.plus.mark, text_eq_mark hu hc (by decide), .due ho (hl.await (.sign .plus)) hd'⟩
  split at hs
  · rename_i hc
    obtain ⟨hd', rfl⟩ := descend_ok hs
    exact ⟨Sign.minus.mark, text_eq_mark hu hc (by decide), .due ho (hl.await (.sign .minus)) hd'⟩
  split at hs
  · rename_i hc
    obtain ⟨hd', rfl⟩ := descend_ok hs
    refine ⟨.mark '(', text_eq_mark hu hc (by decide), ?_⟩
    have h := StateRead.due (.cons ho hl) .fresh hd'
    rwa [List.append_nil] at h
  split at hs
  · split at hs
    · rename_i d hdec
      obtain ⟨n, hn, rfl⟩ := Numeral.exists_of_read? hdec
      exact ⟨.numeral n, hn, StateRead.supply ho hl (.number n hd) hs⟩
    · cases hs
  · rename_i hk
    dsimp only at hs
    split at hs
    · rename_i f hf
      obtain ⟨hd', rfl⟩ := descend_ok hs
      exact ⟨.function f, text_of_ofName? hf, .due ho (hl.await (.call f)) hd'⟩
    · rename_i hf
      split at hs
      · rename_i x hx
        rw [← Environment.lookup_eq hx] at hs
        refine ⟨.name (String.ofList t.run.text), String.toList_ofList, ?_⟩
        exact StateRead.supply ho hl (.name (resolved_name hu hk hf hx) hd) hs
      · cases hs
  · cases hs

theorem StateRead.readOperator {sum : Option (Float × Sign)} {outer : List Level}
    {ls₁ ls₂ ls₃ : List Lexeme} {t : Token} {s : State} (ho : OuterRead env outer ls₁)
    (hsum : SumPart env (outside outer) sum ls₂) (ht : IsTerm env (outside outer) ls₃ y)
    (hu : t.run.Uniform tokenKind) (hs : (readOperator sum y outer t).result = .ok s) :
    ∃ l : Lexeme, l.text = t.run.text ∧ StateRead env s (ls₁ ++ (ls₂ ++ ls₃) ++ [l]) := by
  have hd : outside outer < maxOpenFactors := by
    obtain ⟨x, -, -, hd, -⟩ := ht
    have := x.depth_pos
    omega
  have next : ∀ {sum product ls}, LevelRead env (outside outer) ⟨sum, product, []⟩ ls →
      StateRead env (.due ⟨sum, product, []⟩ outer) (ls₁ ++ ls) :=
    fun hl => .due ho hl ((openFactors_eq _ _).trans_lt hd)
  unfold Expression.readOperator at hs
  split at hs
  · rename_i hc
    cases hs
    refine ⟨Scale.times.mark, text_eq_mark hu hc (by decide), ?_⟩
    simpa using next (.operator hsum (.some .times ht))
  split at hs
  · rename_i hc
    cases hs
    refine ⟨Scale.over.mark, text_eq_mark hu hc (by decide), ?_⟩
    simpa using next (.operator hsum (.some .over ht))
  split at hs
  · rename_i hc
    cases hs
    refine ⟨Sign.plus.mark, text_eq_mark hu hc (by decide), ?_⟩
    simpa using next (.operator (.some .plus (hsum.total ht)) .none)
  split at hs
  · rename_i hc
    cases hs
    refine ⟨Sign.minus.mark, text_eq_mark hu hc (by decide), ?_⟩
    simpa using next (.operator (.some .minus (hsum.total ht)) .none)
  split at hs
  · cases hs
  split at hs
  · rename_i hc
    refine ⟨.mark ')', text_eq_mark hu hc (by decide), ?_⟩
    cases ho with
    | cons ho hl =>
      have he := hsum.total ht
      rw [outside_cons] at he
      have h := StateRead.supply ho hl (.group he) hs
      simpa using h
  · cases hs

/-- One more token is one more lexeme. -/
theorem StateRead.step {s s' : State} {t : Token} (h : StateRead env s ls)
    (hu : t.run.Uniform tokenKind) (hs : (s.step env t).result = .ok s') :
    ∃ l : Lexeme, l.text = t.run.text ∧ StateRead env s' (ls ++ [l]) := by
  cases h with
  | due ho hl hd =>
    obtain ⟨l, hl', h⟩ := StateRead.readOperand ho hl hd hu hs
    exact ⟨l, hl', by rwa [List.append_assoc]⟩
  | complete ho hsum ht => exact StateRead.readOperator ho hsum ht hu hs

/-- What the tokens of a text lead to is the beginning of a derivation. -/
theorem StateRead.run {s s' : State} {ts : List Token} (h : StateRead env s ls)
    (hu : ∀ t ∈ ts, t.run.Uniform tokenKind) (hs : (s.run env ts).result = .ok s') :
    ∃ ls' : List Lexeme, ls'.map Lexeme.text = ts.map (fun t => t.run.text) ∧
      StateRead env s' (ls ++ ls') := by
  induction ts generalizing s ls with
  | nil =>
    cases hs
    exact ⟨[], rfl, by rwa [List.append_nil]⟩
  | cons t ts ih =>
    rw [State.run_cons] at hs
    obtain ⟨s₁, hs₁, hs⟩ := Logged.result_bind_eq_ok.1 hs
    obtain ⟨ht, hts⟩ := List.forall_mem_cons.1 hu
    obtain ⟨l, hl, h₁⟩ := h.step ht hs₁
    obtain ⟨ls', hls', h₂⟩ := ih h₁ hts hs
    refine ⟨l :: ls', by rw [List.map_cons, List.map_cons, hl, hls'], ?_⟩
    rwa [List.append_assoc] at h₂

end LineCalculator.Expression

import LineCalculator.Proofs.Grammar.Counter
import LineCalculator.Proofs.Grammar.Stop
/-! # Beginnings of derivations

What was read of a text is the beginning of a derivation, and any phrase of the kind that is due
can follow it. The derivation is put together from the inside: what waits at a level is put around
an operand, the factor goes into the term and the sum that the level has begun, and the sum into
the parenthesis of the next level. Its depth is not limited.

* `Begins env ls os`: a derivation has the lexemes `ls` first and then those of `os`, where these
  open the factors with the numbers in `os`.
* `LevelRead.exists_around`, `OuterRead.begins`: the phrases around a factor and around a sum.
* `StateRead.begins`: any factor can follow where an operand is due.
* `StateRead.begins_close`, `StateRead.exists_lexemes`: a parenthesis can be closed after a term,
  and there is some derivation in any state.
* `OpensLast env n text`: the last lexeme of the text opens the factor number `n` in a derivation
  that begins with the text.
* `opensLast_iff`: there is one such number, and it is what the reader has counted.
-/

namespace LineCalculator.Expression
set_option autoImplicit false
open Text

def Begins (env : Environment) (ls : List Lexeme) (os : List (Lexeme × Option Nat)) : Prop :=
  ∃ (e : SumTree) (before after : List (Lexeme × Option Nat)), (∀ l ∈ e.lexemes, l.Resolved env) ∧
    e.openings 0 = before ++ (os ++ after) ∧ before.map Prod.fst = ls

variable {env : Environment} {level : Level} {outer : List Level} {d n : Nat}
  {ls : List Lexeme} {os os' : List (Lexeme × Option Nat)}

theorem Begins.of_append (h : Begins env ls (os ++ os')) : Begins env ls os := by
  obtain ⟨e, before, after, hr, he, hls⟩ := h
  exact ⟨e, before, os' ++ after, hr, by rw [he, List.append_assoc], hls⟩

theorem Begins.after (h : Begins env ls (os ++ os')) : Begins env (ls ++ os.map Prod.fst) os' := by
  obtain ⟨e, before, after, hr, he, rfl⟩ := h
  refine ⟨e, before ++ os, after, hr, ?_, List.map_append⟩
  rw [he]
  simp only [List.append_assoc]

theorem Begins.exists_lexemes (h : Begins env ls os) : ∃ e : SumTree,
    (∀ l ∈ e.lexemes, l.Resolved env) ∧ ∃ after, e.lexemes = ls ++ (os.map Prod.fst ++ after) := by
  obtain ⟨e, before, after, hr, he, rfl⟩ := h
  refine ⟨e, hr, after.map Prod.fst, ?_⟩
  rw [← e.map_fst_openings 0, he, List.map_append, List.map_append]

def Numeral.zero : Numeral := ⟨['0'], isNumeral_of_digits (by decide) (by decide)⟩

theorem resolved_zero : ∀ l ∈ (FactorTree.number .zero).lexemes, l.Resolved env :=
  List.forall_mem_singleton.2 trivial

/-! ## Around a factor -/

theorem exists_around_waiting (ws : List Waiting) (x : FactorTree)
    (hx : ∀ l ∈ x.lexemes, l.Resolved env) (d : Nat) :
    ∃ (x' : FactorTree) (before : List (Lexeme × Option Nat)),
      (∀ l ∈ x'.lexemes, l.Resolved env) ∧
      x'.openings d = before ++ x.openings (d + ws.length) ∧
      before.map Prod.fst = ws.reverse.map Waiting.lexeme := by
  induction ws generalizing x with
  | nil => exact ⟨x, [], hx, rfl, rfl⟩
  | cons w ws ih =>
    obtain ⟨y, hy, hopen⟩ : ∃ y : FactorTree, (∀ l ∈ y.lexemes, l.Resolved env) ∧
        ∀ n, y.openings n = (w.lexeme, some (n + 1)) :: x.openings (n + 1) := by
      cases w with
      | sign s => exact ⟨.sign s x, List.forall_mem_cons.2 ⟨s.resolved_mark, hx⟩, fun n => rfl⟩
      | call f => exact ⟨.call f x, List.forall_mem_cons.2 ⟨trivial, hx⟩, fun n => rfl⟩
    obtain ⟨x', before, hx', hbefore, hws⟩ := ih y hy
    refine ⟨x', before ++ [(w.lexeme, some (d + ws.length + 1))], hx', ?_, ?_⟩
    · rw [hbefore, hopen, List.append_assoc]
      rfl
    · rw [List.map_append, hws, List.reverse_cons, List.map_append]
      rfl

theorem ProductPart.exists_around {product : Option (Float × Scale)}
    (h : ProductPart env d product ls) (x : FactorTree) (hx : ∀ l ∈ x.lexemes, l.Resolved env) :
    ∃ (t : TermTree) (before : List (Lexeme × Option Nat)), (∀ l ∈ t.lexemes, l.Resolved env) ∧
      t.openings d = before ++ x.openings d ∧ before.map Prod.fst = ls := by
  cases h with
  | none => exact ⟨.factor x, [], hx, rfl, rfl⟩
  | some o h =>
    obtain ⟨t, rfl, hr, -, -⟩ := h
    refine ⟨.scale t o x, t.openings d ++ [(o.mark, Option.none)], ?_, ?_, ?_⟩
    · exact List.forall_mem_append.2 ⟨hr, List.forall_mem_cons.2 ⟨o.resolved_mark, hx⟩⟩
    · rw [TermTree.openings, List.append_assoc]
      rfl
    · rw [List.map_append, t.map_fst_openings]
      rfl

theorem SumPart.exists_around {sum : Option (Float × Sign)} (h : SumPart env d sum ls)
    (t : TermTree) (ht : ∀ l ∈ t.lexemes, l.Resolved env) :
    ∃ (e : SumTree) (before : List (Lexeme × Option Nat)), (∀ l ∈ e.lexemes, l.Resolved env) ∧
      e.openings d = before ++ t.openings d ∧ before.map Prod.fst = ls := by
  cases h with
  | none => exact ⟨.term t, [], ht, rfl, rfl⟩
  | some s h =>
    obtain ⟨e, rfl, hr, -, -⟩ := h
    refine ⟨.add e s t, e.openings d ++ [(s.mark, Option.none)], ?_, ?_, ?_⟩
    · exact List.forall_mem_append.2 ⟨hr, List.forall_mem_cons.2 ⟨s.resolved_mark, ht⟩⟩
    · rw [SumTree.openings, List.append_assoc]
      rfl
    · rw [List.map_append, e.map_fst_openings]
      rfl

theorem LevelRead.exists_around (h : LevelRead env d level ls) (x : FactorTree)
    (hx : ∀ l ∈ x.lexemes, l.Resolved env) :
    ∃ (e : SumTree) (before : List (Lexeme × Option Nat)), (∀ l ∈ e.lexemes, l.Resolved env) ∧
      e.openings d = before ++ x.openings (d + level.waiting.length) ∧
      before.map Prod.fst = ls := by
  cases h with
  | mk hs hp =>
    obtain ⟨x', b₃, hx', ho₃, h₃⟩ := exists_around_waiting level.waiting x hx d
    obtain ⟨t, b₂, ht, ho₂, h₂⟩ := hp.exists_around x' hx'
    obtain ⟨e, b₁, he, ho₁, h₁⟩ := hs.exists_around t ht
    refine ⟨e, b₁ ++ (b₂ ++ b₃), he, ?_, ?_⟩
    · rw [ho₁, ho₂, ho₃]
      simp only [List.append_assoc]
    · rw [List.map_append, List.map_append, h₁, h₂, h₃]

/-! ## Around a sum -/

theorem OuterRead.begins (h : OuterRead env outer ls) (e : SumTree)
    (he : ∀ l ∈ e.lexemes, l.Resolved env) : Begins env ls (e.openings (outside outer)) := by
  induction h generalizing e with
  | nil => exact ⟨e, [], [], he, (List.append_nil _).symm, rfl⟩
  | @cons level outer ls₁ ls₂ ho hl ih =>
    obtain ⟨e', inner, he', ho', hls₂⟩ := hl.exists_around (.group e) (resolved_group he)
    obtain ⟨E, before, after, hE, hopen, hls₁⟩ := ih e' he'
    refine ⟨E, before ++ (inner ++ [(.mark '(', some (outside (level :: outer)))]),
      (.mark ')', none) :: after, hE, ?_, ?_⟩
    · rw [hopen, ho', FactorTree.openings, ← openFactors_eq, ← outside_cons]
      simp
    · rw [List.map_append, List.map_append, hls₁, hls₂]
      rfl

theorem StateRead.begins (h : StateRead env (.due level outer) ls) (x : FactorTree)
    (hx : ∀ l ∈ x.lexemes, l.Resolved env) :
    Begins env ls (x.openings (openFactors level outer)) := by
  cases h with
  | due ho hl hd =>
    obtain ⟨e, inner, he, hinner, hls₂⟩ := hl.exists_around x hx
    obtain ⟨E, before, after, hE, hopen, hls₁⟩ := ho.begins e he
    refine ⟨E, before ++ inner, after, hE, ?_, by rw [List.map_append, hls₁, hls₂]⟩
    rw [hopen, hinner, openFactors_eq]
    simp only [List.append_assoc]

/-- The innermost parenthesis can be closed where a term is complete. -/
theorem StateRead.begins_close {sum : Option (Float × Sign)} {y : Float}
    (h : StateRead env (.complete sum y (level :: outer)) ls) :
    Begins env ls [(.mark ')', none)] := by
  cases h with
  | complete ho hs ht =>
    cases ho with
    | cons ho hl =>
      obtain ⟨e, hlexemes, he, hd, -⟩ := hs.total ht
      have hfits : openFactors level outer < maxOpenFactors := by
        have := e.depth_pos
        rw [outside_cons] at hd
        omega
      have h := (StateRead.due ho hl hfits).begins (.group e) (resolved_group he)
      rw [FactorTree.openings, ← List.cons_append] at h
      have hclose := h.after
      rw [List.map_cons, e.map_fst_openings, hlexemes] at hclose
      simpa only [List.append_assoc, List.singleton_append] using hclose

/-- What leads to a state is how a derivation begins. -/
theorem StateRead.exists_lexemes {s : State} (h : StateRead env s ls) : ∃ e : SumTree,
    (∀ l ∈ e.lexemes, l.Resolved env) ∧ ∃ after, e.lexemes = ls ++ after := by
  have of_begins {os : List (Lexeme × Option Nat)} (h : Begins env ls os) : ∃ e : SumTree,
      (∀ l ∈ e.lexemes, l.Resolved env) ∧ ∃ after, e.lexemes = ls ++ after :=
    let ⟨e, hr, after, he⟩ := h.exists_lexemes
    ⟨e, hr, _, he⟩
  cases s with
  | due level outer => exact of_begins (h.begins (.number .zero) resolved_zero)
  | complete sum y outer =>
    cases outer with
    | cons level outer => exact of_begins h.begins_close
    | nil =>
      cases h with
      | complete ho hs ht =>
        cases ho
        obtain ⟨e, hlexemes, hr, -⟩ := hs.total ht
        exact ⟨e, hr, [], hlexemes.trans (List.append_nil _).symm⟩

/-- The lexemes of the tokens that lead to a state. -/
theorem exists_stateRead {a : List Char} {s : State} (hs : scan env .start a = .reached s) :
    ∃ ls : List Lexeme, ls.map Lexeme.text = tokenTexts a ∧ StateRead env s ls :=
  StateRead.start.run (fun _ => uniform_of_mem_tokens) (outcome_eq_reached.1 hs)

/-! ## The last lexeme -/

variable (env) in
theorem Lexeme.Opens.exists_factor {l : Lexeme} (h : l.Opens) (n : Nat) : ∃ x : FactorTree,
    (∀ l ∈ x.lexemes, l.Resolved env) ∧ ∃ os, x.openings n = (l, some (n + 1)) :: os := by
  cases l with
  | mark c =>
    simp only [Lexeme.Opens, List.mem_cons, List.not_mem_nil, or_false] at h
    rcases h with rfl | rfl | rfl
    · exact ⟨.sign .plus (.number .zero), List.forall_mem_cons.2 ⟨trivial, resolved_zero⟩, _, rfl⟩
    · exact ⟨.sign .minus (.number .zero), List.forall_mem_cons.2 ⟨trivial, resolved_zero⟩, _, rfl⟩
    · exact ⟨.group (.term (.factor (.number .zero))), resolved_group resolved_zero, _, rfl⟩
  | function f =>
    exact ⟨.call f (.number .zero), List.forall_mem_cons.2 ⟨trivial, resolved_zero⟩, _, rfl⟩
  | numeral m => cases h
  | name a => cases h

def OpensLast (env : Environment) (n : Nat) (text : List Char) : Prop :=
  ∃ ls l, Begins env ls [(l, some n)] ∧ tokenTexts text = (ls ++ [l]).map Lexeme.text

theorem opensLast_iff {a b : List Char} {r : Run} {l : Lexeme}
    (hs : scan env .start a = .reached (.due level outer)) (ht : TokenAt a r b) (hl : l.Opens)
    (htext : l.text = r.text) :
    OpensLast env n (a ++ r.text) ↔ n = openFactors level outer + 1 := by
  constructor
  · rintro ⟨ls, l', ⟨e, before, after, hr, hopen, rfl⟩, htokens⟩
    rw [ht.tokenTexts_eq, List.map_append] at htokens
    have hts : tokenTexts a = before.map fun o => o.1.text := by
      rw [(List.append_inj' htokens rfl).1, List.map_map]
      rfl
    have hopen' : e.openings (openFactors .fresh []) = before ++ (l', some n) :: after := hopen
    exact (e.depth_of_openings hopen' hts hr (outcome_eq_reached.1 hs)).symm
  · rintro rfl
    obtain ⟨ls, hls, hread⟩ := exists_stateRead hs
    obtain ⟨x, hx, os, hos⟩ := hl.exists_factor env (openFactors level outer)
    have hbegins : Begins env ls ([(l, some (openFactors level outer + 1))] ++ os) := by
      rw [List.singleton_append, ← hos]
      exact hread.begins x hx
    refine ⟨ls, l, hbegins.of_append, ?_⟩
    rw [ht.tokenTexts_eq, List.map_append, hls, List.map_singleton, htext]

end LineCalculator.Expression

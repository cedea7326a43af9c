import LineCalculator.Proofs.Grammar.Alike
import LineCalculator.Proofs.Substitution.Parentheses
/-! # Whether an expression has a value

No operation but the factorial refuses a value, and a value is rendered as one factor. So whether an
expression is accepted depends on which names are bound. Two things come in between: a value with a
sign or in parentheses opens more factors than others, and a sign is read as an operator where no
operand is due.

* `Accepts env expression`: the expression has a value, its bound names being read as operands.
* `matched_render`: where an operand is due one value does as well as another.
* `matched_substitute`, `DetachedFrom.congr`: the same for whole texts.
* `accepts_congr`: environments with the same names accept the same expressions, unless these nest
  too deeply with the values of one.
-/

namespace LineCalculator.Substitution
set_option autoImplicit false
open Text Expression

variable {env env' : Environment}

/-! ## A value in the stead of another -/

theorem scan_render (env : Environment) {level : Level} {outer : List Level}
    (ho : openFactors level outer < maxOpenFactors) (x : Float) :
    scan env (.due level outer) (render x) = .tooDeep ∨
      scan env (.due level outer) (render x) = outcome (level.supply outer x) := by
  by_cases hd : openFactors level outer + (operand x).depth ≤ maxOpenFactors
  · exact .inr (FactorTree.outcome_run (tokenTexts_render x) (resolved_operand env x)
      (result_operand x) hd)
  · exact .inl (FactorTree.run_tooDeep (operand x) (tokenTexts_render x) (resolved_operand env x)
      (result_operand x) ho (Nat.not_le.1 hd))

theorem matched_render {level level' : Level} {outer outer' : List Level}
    (hl : level.Alike level') (ho : List.Forall₂ Level.Alike outer outer')
    (hd : openFactors level outer < maxOpenFactors) (x x' : Float) :
    (scan env (.due level outer) (render x)).MatchedBy
      (scan env' (.due level' outer') (render x')) := by
  have hout : outside outer < maxOpenFactors := by
    rw [openFactors] at hd
    omega
  have hd' : openFactors level' outer' < maxOpenFactors := by
    rwa [← openFactors_congr hl ho]
  rcases scan_render env hd x with h | h
  · rw [h]
    intro s hs
    cases hs
  rcases scan_render env' hd' x' with h' | h'
  · rw [h']
    exact fun _ _ => .inl rfl
  · rw [h, h']
    exact (alike_supply hl ho hout x x').matchedBy

/-! ## Whole texts -/

section Texts
variable (hsame : env.SameNames env')
include hsame

theorem Unbound.congr {text : List Char} (h : Unbound env text) : Unbound env' text :=
  fun r hr => (hsame _).symm.trans (h r hr)

theorem Occurrence.congr {before name after : List Char} (h : Occurrence env before name after) :
    Occurrence env' before name after := ⟨(hsame _).symm.trans h.bound, h.left, h.right⟩

/-- With values of one environment in the stead of the bound names a text is read as with those of
another, if all of them are safe. -/
theorem matched_substitute {s s' : State} {text : List Char} (hd : DetachedFrom env s text)
    (hs : s.Alike s') (hpoint : '.' ∉ text) (hfact : ¬ "fact".toList <:+: text) :
    (scan env s (substitute env text)).MatchedBy (scan env' s' (substitute env' text)) := by
  induction text using occurrence_induction env generalizing s s' with
  | unbound text h =>
    rw [h.substitute_eq, (h.congr hsame).substitute_eq]
    exact (alike_scan hsame hs hfact).matchedBy
  | occurrence before name after hb ho ih =>
    have hsafe := hd before name after rfl ho
    have hbefore : ¬ "fact".toList <:+: before := fun h =>
      hfact (h.trans (List.prefix_append _ _).isInfix)
    have hafter : ¬ "fact".toList <:+: after := fun h =>
      hfact (h.trans ((List.suffix_append _ _).trans (List.suffix_append _ _)).isInfix)
    have hpoint' : '.' ∉ after := fun h => hpoint (by simp [h])
    have ho' := ho.congr hsame
    rw [scan_substitute ho s hb hsafe.no_point_before hsafe.no_point_after,
      scan_substitute ho' s' (hb.congr hsame) hsafe.no_point_before hsafe.no_point_after]
    refine (alike_scan hsame hs hbefore).matchedBy.bind fun s₁ s₁' h₁ hs₁ =>
      Outcome.MatchedBy.bind ?_ fun s₂ s₂' h₂ hs₂ => ih (hd.rest hb ho h₁ h₂) hs₂ hpoint' hafter
    cases hs₁ with
    | due hl houter hdepth =>
      rw [ho.replace_eq, ho'.replace_eq]
      exact matched_render hl houter hdepth _ _
    | @complete sum _ term _ outer _ houter hdepth =>
      have hcomplete : (State.complete sum term outer).IsComplete := trivial
      have hneg : (replace env name).head? ≠ some '-' := by
        intro hneg
        refine hsafe.no_operator_due hneg _ ?_ hcomplete
        rw [hb.substitute_eq, h₁]
      rw [ho.replace_eq] at hneg ⊢
      rw [scan_render_of_isComplete hcomplete hneg]
      exact Outcome.matchedBy_failed _

end Texts

theorem DetachedFrom.before {s : State} {before name after : List Char}
    (hd : DetachedFrom env s (before ++ (name ++ after))) (ho : Occurrence env before name after) :
    DetachedFrom env s before := by
  rintro b n a rfl hn
  have hright : Apart wordKind n (a ++ (name ++ after)) := by
    cases a with
    | cons c a => exact hn.right.congr_right rfl
    | nil =>
      have hleft := ho.left
      rw [List.append_nil] at hleft
      have hname : Apart wordKind n name :=
        hleft.congr_left (by rw [List.getLast?_append_of_ne_nil _ hn.ne_nil])
      exact hname.congr_right (by rw [List.nil_append, List.head?_append_of_ne_nil _ ho.ne_nil])
  have hsafe := hd b n (a ++ (name ++ after)) (by simp only [List.append_assoc])
    ⟨hn.bound, hn.left, hright⟩
  refine ⟨hsafe.no_point_before, fun hp => hsafe.no_point_after ?_, hsafe.no_operator_due⟩
  rw [List.head?_append, hp]
  rfl

/-- A text that is read to its end with its bound names as operands has them as operands with other
values as well. -/
theorem DetachedFrom.congr (hsame : env.SameNames env') {s s' t : State} {text : List Char}
    (hd : DetachedFrom env s text) (hs : s.Alike s') (hpoint : '.' ∉ text)
    (hfact : ¬ "fact".toList <:+: text) (h : scan env s (substitute env text) = .reached t) :
    DetachedFrom env' s' text := by
  rintro before name after rfl ho'
  have ho : Occurrence env before name after := ho'.congr hsame.symm
  have hsafe := hd before name after rfl ho
  refine ⟨hsafe.no_point_before, hsafe.no_point_after, fun _ s₁' h₁' hcomplete' => ?_⟩
  rw [scan_substitute_occurrence ho s hsafe.no_point_before hsafe.no_point_after] at h
  obtain ⟨s₁, h₁, h⟩ := Outcome.bind_eq_reached.1 h
  obtain ⟨s₂, h₂, -⟩ := Outcome.bind_eq_reached.1 h
  have hbefore : ¬ "fact".toList <:+: before := fun h =>
    hfact (h.trans (List.prefix_append _ _).isInfix)
  have hm := matched_substitute hsame (hd.before ho) hs
    (fun h => hpoint (List.mem_append_left _ h)) hbefore
  have hcomplete : s₁.IsComplete := by
    rcases hm s₁ h₁ with hdeep | ⟨s', hs', ha⟩
    · rw [hdeep] at h₁'
      cases h₁'
    · rw [hs'] at h₁'
      cases h₁'
      exact ha.isComplete hcomplete'
  by_cases hneg : (replace env name).head? = some '-'
  · exact hsafe.no_operator_due hneg s₁ h₁ hcomplete
  · rw [ho.replace_eq] at hneg h₂
    rw [scan_render_of_isComplete hcomplete hneg] at h₂
    cases h₂

/-! ## Expressions -/

def Succeeds (l : Logged LineError Float) : Prop := ∃ v, l.result = .ok v

section
variable [PatternCompiler]

/-- The expression has a value, and its bound names are read as operands. -/
def Accepts (env : Environment) (expression : String) : Prop :=
  Succeeds (evaluate env expression) ∧ Detached env expression.toList

section Expressions
variable {expression : String}

theorem succeeds_iff : Succeeds (evaluate env expression) ↔
    Searchable env ∧ ∃ sum term, scan env .start (substitute env expression.toList) =
      .reached (.complete sum term []) := by
  simp only [Succeeds, evaluate_eq_ok_iff_reading, reading_eq, Outcome.bind_eq_reached]
  constructor
  · rintro ⟨v, hsearch, s, hs, hv⟩
    cases s with
    | due level outer => cases hv
    | complete sum term outer =>
      cases outer with
      | nil => exact ⟨hsearch, sum, term, hs⟩
      | cons level outer => cases hv
  · rintro ⟨hsearch, sum, term, hs⟩
    exact ⟨total sum term, hsearch, _, hs, rfl⟩

theorem failsTooDeep_of_scan (hsearch : Searchable env)
    (h : scan env .start (substitute env expression.toList) = .tooDeep) :
    FailsTooDeep (evaluate env expression) := by
  rw [failsTooDeep_iff, reading_eq, h, Outcome.tooDeep_bind]
  exact ⟨hsearch, rfl⟩

variable (hsame : env.SameNames env') (hpoint : '.' ∉ expression.toList)
  (hfact : ¬ "fact".toList <:+: expression.toList)
include hsame hpoint hfact

theorem Accepts.of_sameNames (h : Accepts env expression) :
    Accepts env' expression ∨ FailsTooDeep (evaluate env' expression) := by
  obtain ⟨hv, hd⟩ := h
  obtain ⟨hsearch, sum, term, hs⟩ := succeeds_iff.1 hv
  have hsearch' := (Searchable.congr hsame).1 hsearch
  rcases matched_substitute hsame hd .start hpoint hfact _ hs with hdeep | ⟨s', hs', ha⟩
  · exact .inr (failsTooDeep_of_scan hsearch' hdeep)
  · cases ha with
    | complete ho _ =>
      cases ho
      exact .inl ⟨succeeds_iff.2 ⟨hsearch', _, _, hs'⟩, hd.congr hsame .start hpoint hfact hs⟩

/-- Which expressions are accepted does not depend on the values of the bound names, but for how
deeply these nest. -/
theorem accepts_congr :
    (Accepts env expression ↔ Accepts env' expression) ∨
      FailsTooDeep (evaluate env expression) ∨ FailsTooDeep (evaluate env' expression) := by
  by_cases h : FailsTooDeep (evaluate env expression)
  · exact .inr (.inl h)
  by_cases h' : FailsTooDeep (evaluate env' expression)
  · exact .inr (.inr h')
  refine .inl ⟨fun ha => ?_, fun ha => ?_⟩
  · exact (ha.of_sameNames hsame hpoint hfact).resolve_right h'
  · exact (ha.of_sameNames hsame.symm hpoint hfact).resolve_right h

end Expressions

end

section
attribute [local instance] PatternCompiler.bySize

/-- Neither value nests too deeply. -/
theorem accepts_two_times_congr :
    (Environment.ofList [("x", 3)]).SameNames (.ofList [("x", -3)]) ∧ '.' ∉ "2*x".toList ∧
      ¬ "fact".toList <:+: "2*x".toList ∧
      (Accepts (.ofList [("x", 3)]) "2*x" ↔ Accepts (.ofList [("x", -3)]) "2*x") := by
  have hsame : (Environment.ofList [("x", 3)]).SameNames (.ofList [("x", -3)]) := by
    decide +kernel
  have hsix : (evaluate (.ofList [("x", 3)]) "2*x").result = .ok 6 := by decide +kernel
  have hminus : (evaluate (.ofList [("x", -3)]) "2*x").result = .ok (-6) := by decide +kernel
  refine ⟨hsame, by decide, by decide, ?_⟩
  refine (accepts_congr hsame (by decide) (by decide)).resolve_right ?_
  rintro (⟨e, p, he, -⟩ | ⟨e, p, he, -⟩)
  · rw [hsix] at he
    cases he
  · rw [hminus] at he
    cases he

/-- A variable in as many parentheses as a number may stand in. -/
def nested : List Char := List.replicate 255 '(' ++ 'x' :: List.replicate 255 ')'

/-- A negative value opens one more factor, and its sign is read as an operator after an operand. -/
theorem succeeds_depends_on_values :
    ((Environment.ofList [("x", 1)]).SameNames (.ofList [("x", -1)]) ∧
      '.' ∉ (String.ofList nested).toList ∧ ¬ "fact".toList <:+: (String.ofList nested).toList ∧
      Succeeds (evaluate (.ofList [("x", 1)]) (String.ofList nested)) ∧
      ¬ Succeeds (evaluate (.ofList [("x", -1)]) (String.ofList nested))) ∧
    (Environment.ofList [("x", 3)]).SameNames (.ofList [("x", -3)]) ∧
      '.' ∉ "2 x".toList ∧ ¬ "fact".toList <:+: "2 x".toList ∧
      ¬ Succeeds (evaluate (.ofList [("x", 3)]) "2 x") ∧
      Succeeds (evaluate (.ofList [("x", -3)]) "2 x") := by
  have hone : scan (.ofList [("x", 1)]) .start (substitute (.ofList [("x", 1)]) nested) =
      .reached (.complete none 1 []) := by decide +kernel
  have hminus : scan (.ofList [("x", -1)]) .start (substitute (.ofList [("x", -1)]) nested) =
      .tooDeep := by decide +kernel
  have hthree : scan (.ofList [("x", 3)]) .start (substitute (.ofList [("x", 3)]) "2 x".toList) =
      .failed := by decide +kernel
  have hdifference : scan (.ofList [("x", -3)]) .start
      (substitute (.ofList [("x", -3)]) "2 x".toList) =
      .reached (.complete (some (2, .minus)) 3 []) := by decide +kernel
  have hsearch : Searchable (.ofList [("x", 1)]) ∧ Searchable (.ofList [("x", -3)]) := by
    decide +kernel
  simp only [succeeds_iff, String.toList_ofList, hone, hminus, hthree, hdifference]
  exact ⟨⟨by decide +kernel, by decide +kernel, by decide +kernel, ⟨hsearch.1, _, _, rfl⟩, nofun⟩,
    by decide +kernel, by decide, by decide, nofun, ⟨hsearch.2, _, _, rfl⟩⟩

end

end LineCalculator.Substitution

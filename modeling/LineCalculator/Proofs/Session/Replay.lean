import LineCalculator.Proofs.Environment
import LineCalculator.Session
/-! # Sessions as replays

The bindings of a session are those that its replies tell, put in one after the other. Lines that
did not bind a name leave no trace in the lines after them.

* `Step.assigned?`: the binding that a line replied to have made.
* `respond_forms`, `respond_cases`: how a line is answered, and what it does to the bindings.
* `steps env lines`, `afterLines env lines`: the answers to some lines and the bindings after them.
* `bindings_afterLines`: the bindings are the replay of the replies.
* `steps_select`, `afterLines_select`: lines that bound nothing may be left out.
-/

namespace LineCalculator
set_option autoImplicit false
open Substitution

/-! ## One line -/

/-- The binding that a line replied to have made. -/
def Step.assigned? (s : Step Reply) : Option Binding :=
  match s.result with
  | .ok (.assigned name value) => some (name, value)
  | _ => none

theorem assigned?_value {env : Environment} {bindings : List Binding} {reply : Reply}
    (h : reply ∈ [.help, .bindings bindings, .empty]) :
    (Step.value env reply).assigned? = none := by
  simp only [List.mem_cons, List.not_mem_nil, or_false] at h
  rcases h with rfl | rfl | rfl
  · rfl
  · rfl
  · rfl

theorem assigned?_map_value (s : Step Float) : (s.map .value).assigned? = none := by
  unfold Step.assigned? Step.map
  cases s.result with
  | ok x => rfl
  | error e => rfl

theorem not_equals_of_isCommand {command : String} {text : List Char}
    (hc : '=' ∉ command.toList) (h : isCommand command text = true) : '=' ∉ text := by
  intro hm
  have he : text.map Char.toLower = command.toList := of_decide_eq_true h
  rw [← he] at hc
  exact hc (List.mem_map_of_mem hm (f := Char.toLower))

section
variable [PatternCompiler]

theorem assign_cases (env : Environment) (line : String) :
    (∃ events e, assign env line = ⟨env, events, .error e⟩) ∨
      ∃ name h value events,
        assign env line = ⟨env.insert name h value, events, .ok (name, value)⟩ := by
  unfold assign
  split
  · exact .inl ⟨_, _, rfl⟩
  · dsimp only
    split
    · rename_i h
      split
      · exact .inr ⟨_, h, _, _, rfl⟩
      · exact .inl ⟨_, _, rfl⟩
    · exact .inl ⟨_, _, rfl⟩

/-- A line asks for the end or for something else, or it is an assignment or an expression. -/
theorem respond_forms (env : Environment) (line : String) :
    (isCommand "exit" (Text.trim line.toList) = true ∧ '=' ∉ Text.trim line.toList ∧
      respond env line = .value env .exit) ∨
    (isCommand "exit" (Text.trim line.toList) = false ∧ '=' ∉ Text.trim line.toList ∧
      ∃ reply, reply ∈ [.help, .bindings env.bindings, .empty] ∧
        respond env line = .value env reply) ∨
    (isCommand "exit" (Text.trim line.toList) = false ∧ '=' ∈ Text.trim line.toList ∧
      respond env line = (assign env (String.ofList (Text.trim line.toList))).map
        fun b => .assigned b.1 b.2) ∨
    (isCommand "exit" (Text.trim line.toList) = false ∧ '=' ∉ Text.trim line.toList ∧
      respond env line = (Step.ofLogged env
        (evaluate env (String.ofList (Text.trim line.toList)))).map .value) := by
  unfold respond respondTrimmed
  split
  · rename_i h
    exact .inl ⟨h, not_equals_of_isCommand (by decide) h, rfl⟩
  rename_i hexit
  rw [Bool.eq_false_iff.2 hexit]
  split
  · rename_i h
    exact .inr (.inl ⟨rfl, not_equals_of_isCommand (by decide) h, _, List.mem_cons_self, rfl⟩)
  split
  · rename_i h
    exact .inr (.inl ⟨rfl, not_equals_of_isCommand (by decide) h, _,
      List.mem_cons_of_mem _ List.mem_cons_self, rfl⟩)
  split
  · rename_i h
    rw [h]
    exact .inr (.inl ⟨rfl, List.not_mem_nil, _, by simp, rfl⟩)
  split
  · rename_i h
    exact .inr (.inr (.inl ⟨rfl, h, rfl⟩))
  · rename_i h
    exact .inr (.inr (.inr ⟨rfl, h, rfl⟩))

/-- A line leaves the bindings as they are, or makes the one that it replies. -/
theorem respond_cases (env : Environment) (line : String) :
    ((respond env line).assigned? = none ∧ (respond env line).environment = env) ∨
      ∃ name h value, (respond env line).assigned? = some (name, value) ∧
        (respond env line).environment = env.insert name h value := by
  rcases respond_forms env line with
    ⟨-, -, hr⟩ | ⟨-, -, reply, hreply, hr⟩ | ⟨-, -, hr⟩ | ⟨-, -, hr⟩
  · rw [hr]
    exact .inl ⟨rfl, rfl⟩
  · rw [hr]
    exact .inl ⟨assigned?_value hreply, rfl⟩
  · rw [hr]
    rcases assign_cases env (String.ofList (Text.trim line.toList)) with
      ⟨events, e, h⟩ | ⟨name, hn, value, events, h⟩
    · rw [h]
      exact .inl ⟨rfl, rfl⟩
    · rw [h]
      exact .inr ⟨name, hn, value, rfl, rfl⟩
  · rw [hr]
    exact .inl ⟨assigned?_map_value _, rfl⟩

theorem environment_respond {env : Environment} {line : String}
    (h : (respond env line).assigned? = none) : (respond env line).environment = env := by
  rcases respond_cases env line with ⟨-, he⟩ | ⟨name, hn, value, ha, -⟩
  · exact he
  · rw [h] at ha
    cases ha

theorem bindings_respond (env : Environment) (line : String) :
    (respond env line).environment.bindings =
      Binding.overwrite env.bindings (respond env line).assigned?.toList := by
  rcases respond_cases env line with ⟨ha, he⟩ | ⟨name, hn, value, ha, he⟩
  · rw [ha, he]
    rfl
  · rw [ha, he]
    rfl

/-! ## Runs -/

/-- The answers to some lines. -/
def steps : Environment → List String → List (Step Reply)
  | _, [] => []
  | env, line :: rest => respond env line :: steps (respond env line).environment rest

/-- The bindings after some lines. -/
def afterLines : Environment → List String → Environment
  | env, [] => env
  | env, line :: rest => afterLines (respond env line).environment rest

/-- The bindings that the replies tell, in order. -/
def assignments (env : Environment) (lines : List String) : List Binding :=
  (steps env lines).filterMap Step.assigned?

theorem afterLines_append (env : Environment) (before after : List String) :
    afterLines env (before ++ after) = afterLines (afterLines env before) after := by
  induction before generalizing env with
  | nil => rfl
  | cons line before ih => exact ih _

theorem assignments_cons (env : Environment) (line : String) (rest : List String) :
    assignments env (line :: rest) = (respond env line).assigned?.toList ++
      assignments (respond env line).environment rest := by
  rw [assignments, steps, List.filterMap_cons]
  cases (respond env line).assigned? with
  | none => rfl
  | some b => rfl

theorem bindings_afterLines (env : Environment) (lines : List String) :
    (afterLines env lines).bindings = Binding.overwrite env.bindings (assignments env lines) := by
  induction lines generalizing env with
  | nil => rfl
  | cons line rest ih =>
    rw [afterLines, ih, bindings_respond, assignments_cons, Binding.overwrite_append]

end

attribute [local instance] PatternCompiler.bySize in
example : assignments .empty ["x = 2", "1 +", "x = x * 3"] = [("x", 2), ("x", 6)] := by
  decide +kernel

/-! ## Lines left out -/

/-- The elements at the places that are kept. -/
def select {α : Type} : (Nat → Bool) → List α → List α
  | _, [] => []
  | keep, a :: rest =>
    if keep 0 then a :: select (fun i => keep (i + 1)) rest else select (fun i => keep (i + 1)) rest

section
variable [PatternCompiler]

/-- Of the lines only such are left out that bound nothing. -/
def KeepsAssignments (env : Environment) (lines : List String) (keep : Nat → Bool) : Prop :=
  ∀ i s, (steps env lines)[i]? = some s → keep i = false → s.assigned? = none

section Select
variable {env : Environment} {line : String} {rest : List String} {keep : Nat → Bool}

theorem KeepsAssignments.tail (h : KeepsAssignments env (line :: rest) keep) :
    KeepsAssignments (respond env line).environment rest fun i => keep (i + 1) := by
  intro i s hs hk
  exact h (i + 1) s hs hk

theorem KeepsAssignments.environment_eq (h : KeepsAssignments env (line :: rest) keep)
    (hk : keep 0 = false) : (respond env line).environment = env :=
  environment_respond (h 0 (respond env line) rfl hk)

end Select

theorem steps_select {env : Environment} {lines : List String} {keep : Nat → Bool}
    (h : KeepsAssignments env lines keep) :
    steps env (select keep lines) = select keep (steps env lines) := by
  induction lines generalizing env keep with
  | nil => rfl
  | cons line rest ih =>
    rw [steps, select, select]
    by_cases hk : keep 0 = true
    · rw [if_pos hk, if_pos hk, steps, ih h.tail]
    · have he := h.environment_eq (Bool.eq_false_iff.2 hk)
      have ih := ih h.tail
      rw [he] at ih
      rw [if_neg hk, if_neg hk, ih, he]

theorem afterLines_select {env : Environment} {lines : List String} {keep : Nat → Bool}
    (h : KeepsAssignments env lines keep) :
    afterLines env (select keep lines) = afterLines env lines := by
  induction lines generalizing env keep with
  | nil => rfl
  | cons line rest ih =>
    rw [select, afterLines]
    by_cases hk : keep 0 = true
    · rw [if_pos hk, afterLines, ih h.tail]
    · have he := h.environment_eq (Bool.eq_false_iff.2 hk)
      have ih := ih h.tail
      rw [he] at ih
      rw [if_neg hk, ih, he]

/-- The bindings of a session are the replay of its replies, and the lines that bound nothing have
no part in it. -/
theorem session_replay (env : Environment) (lines : List String) :
    (afterLines env lines).bindings = Binding.overwrite env.bindings (assignments env lines) ∧
    (∀ name, (afterLines env lines).get? name =
      (Binding.find? name (assignments env lines).reverse).or (env.get? name)) ∧
    (∀ before line, (respond (afterLines env before) line).assigned? = none →
      afterLines env (before ++ [line]) = afterLines env before) ∧
    (∀ b ∈ (afterLines env lines).bindings, IsName b.1) ∧
    ∀ keep, KeepsAssignments env lines keep →
      steps env (select keep lines) = select keep (steps env lines) ∧
        afterLines env (select keep lines) = afterLines env lines := by
  refine ⟨bindings_afterLines env lines, fun name => ?_, fun before line h => ?_,
    (afterLines env lines).named, fun keep h => ⟨steps_select h, afterLines_select h⟩⟩
  · rw [Environment.get?, bindings_afterLines, Binding.find?_overwrite]
    rfl
  · rw [afterLines_append]
    exact environment_respond h

end

end LineCalculator

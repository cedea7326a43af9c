import LineCalculator.Proofs.Session.Replay
import LineCalculator.Proofs.Text.Trim
/-! # Assignment lines

A line with an equals sign is an assignment, whatever else stands in it.

* `splitAssignment?_eq_some_iff`: the first equals sign splits a line.
* `assignmentParts? line`: what stands before and after it, without the blanks around.
* `respond_of_equals`: such a line is no command and no expression.
* `assigned?_eq_some_iff`: which line binds which name to which value.
-/

namespace LineCalculator
set_option autoImplicit false
open Text Substitution

/-! ## The two sides -/

section Split
variable {line left right : List Char}

theorem splitAssignment?_append (h : '=' ∉ left) :
    splitAssignment? (left ++ '=' :: right) = some (left, right) := by
  have hleft : ∀ c ∈ left, decide (c ≠ '=') = true := by
    intro c hc
    exact decide_eq_true fun he => h (he ▸ hc)
  have hdrop : (left ++ '=' :: right).dropWhile (· ≠ '=') = '=' :: right := by
    rw [List.dropWhile_append_of_pos hleft]
    rfl
  have htake : (left ++ '=' :: right).takeWhile (· ≠ '=') = left := by
    rw [List.takeWhile_append_of_pos hleft]
    exact List.append_nil left
  rw [splitAssignment?, hdrop, htake]

theorem splitAssignment?_eq_some_iff :
    splitAssignment? line = some (left, right) ↔ line = left ++ '=' :: right ∧ '=' ∉ left := by
  refine ⟨fun h => ?_, fun ⟨hline, hleft⟩ => hline ▸ splitAssignment?_append hleft⟩
  unfold splitAssignment? at h
  split at h
  · cases h
  · rename_i c rest hdrop
    cases h
    have hjoin : line.takeWhile (· ≠ '=') ++ line.dropWhile (· ≠ '=') = line :=
      List.takeWhile_append_dropWhile
    have hstop := List.head?_dropWhile_not (· ≠ '=') line
    rw [hdrop, List.head?_cons] at hstop
    have hc : c = '=' := by simpa using hstop
    rw [hdrop, hc] at hjoin
    refine ⟨hjoin.symm, fun hm => ?_⟩
    have hne := List.mem_takeWhile_imp hm
    simp at hne

theorem splitAssignment?_eq_none_iff : splitAssignment? line = none ↔ '=' ∉ line := by
  constructor
  · intro h hm
    obtain ⟨left, right, he, hleft⟩ := List.eq_append_cons_of_mem hm
    rw [he, splitAssignment?_append hleft] at h
    cases h
  · intro h
    cases hs : splitAssignment? line with
    | none => rfl
    | some p =>
      rw [(splitAssignment?_eq_some_iff.1 hs).1] at h
      exact absurd (List.mem_append_right _ List.mem_cons_self) h

end Split

/-- The name and the expression of an assignment. -/
def assignmentParts? (line : String) : Option (String × String) :=
  (splitAssignment? line.toList).map fun p =>
    (String.ofList (trim p.1), String.ofList (trim p.2))

theorem assignmentParts?_eq_some_iff {line name expression : String} :
    assignmentParts? line = some (name, expression) ↔
      ∃ left right, (line.toList = left ++ '=' :: right ∧ '=' ∉ left) ∧
        String.ofList (trim left) = name ∧ String.ofList (trim right) = expression := by
  simp [assignmentParts?, splitAssignment?_eq_some_iff]

theorem assignmentParts?_trim (line : String) :
    assignmentParts? (String.ofList (trim line.toList)) = assignmentParts? line := by
  obtain ⟨before, after, hline, hbefore, hafter⟩ := exists_trim line.toList
  rw [assignmentParts?, assignmentParts?, String.toList_ofList]
  cases hs : splitAssignment? (trim line.toList) with
  | none =>
    have hn : '=' ∉ trim line.toList := splitAssignment?_eq_none_iff.1 hs
    rw [mem_trim_iff (by decide)] at hn
    rw [splitAssignment?_eq_none_iff.2 hn]
  | some p =>
    obtain ⟨left, right⟩ := p
    obtain ⟨ht, hleft⟩ := splitAssignment?_eq_some_iff.1 hs
    have hline' : line.toList = (before ++ left) ++ '=' :: (right ++ after) := by
      rw [hline, ht]
      simp
    have hleft' : '=' ∉ before ++ left := by
      rw [List.mem_append, not_or]
      refine ⟨fun hm => ?_, hleft⟩
      exact absurd (hbefore _ hm) (by decide)
    rw [hline', splitAssignment?_append hleft', Option.map_some, Option.map_some,
      trim_append_left hbefore, trim_append_right hafter]

/-! ## What an assignment does -/

/-- Binds a name to the value of an expression. -/
def assignTo [PatternCompiler] (env : Environment) (name expression : String) :
    Step (String × Float) :=
  if h : IsName name then
    match (evaluate env expression).result with
    | .ok value => ⟨env.insert name h value,
        (evaluate env expression).events ++ [bindingEvent env name value], .ok (name, value)⟩
    | .error e => ⟨env, (evaluate env expression).events, .error e⟩
  else .error env (.invalidName name)

section Assign
variable [PatternCompiler] {env : Environment} {line name expression : String} {b : Binding}

theorem assign_of_parts (h : assignmentParts? line = some (name, expression)) :
    assign env line = assignTo env name expression := by
  obtain ⟨p, hs, hp⟩ := Option.map_eq_some_iff.1 h
  cases hp
  rw [assign, hs]
  rfl

theorem assign_of_no_parts (h : assignmentParts? line = none) :
    assign env line = .error env (.invalidAssignment line) := by
  rw [assign, Option.map_eq_none_iff.1 h]

theorem assignTo_result_eq_ok_iff : (assignTo env name expression).result = .ok b ↔
    b.1 = name ∧ IsName name ∧ (evaluate env expression).result = .ok b.2 := by
  obtain ⟨name', value⟩ := b
  rw [assignTo]
  by_cases hn : IsName name
  · rw [dif_pos hn]
    cases (evaluate env expression).result with
    | ok x => simp [hn, eq_comm]
    | error e => simp
  · rw [dif_neg hn]
    simp [Step.error, hn]

theorem assignTo_result_eq_error_iff {e : LineError} :
    (assignTo env name expression).result = .error e ↔
      (¬ IsName name ∧ e = .invalidName name) ∨
        (IsName name ∧ (evaluate env expression).result = .error e) := by
  rw [assignTo]
  by_cases hn : IsName name
  · rw [dif_pos hn]
    cases (evaluate env expression).result with
    | ok x => simp [hn]
    | error e => simp [hn]
  · rw [dif_neg hn]
    simp [Step.error, hn, eq_comm]

theorem assign_result_eq_ok_iff : (assign env line).result = .ok b ↔
    ∃ expression, assignmentParts? line = some (b.1, expression) ∧ IsName b.1 ∧
      (evaluate env expression).result = .ok b.2 := by
  cases hp : assignmentParts? line with
  | none =>
    rw [assign_of_no_parts hp]
    simp [Step.error]
  | some p =>
    obtain ⟨name, expression⟩ := p
    rw [assign_of_parts hp, assignTo_result_eq_ok_iff]
    constructor
    · rintro ⟨rfl, hn, hv⟩
      exact ⟨expression, rfl, hn, hv⟩
    · rintro ⟨expression', he, hn, hv⟩
      cases he
      exact ⟨rfl, hn, hv⟩

/-- An assignment fails for want of an equals sign, on the name before it, or as the expression
after it fails. -/
theorem assign_result_eq_error_iff {e : LineError} : (assign env line).result = .error e ↔
    ('=' ∉ line.toList ∧ e = .invalidAssignment line) ∨
      ∃ name expression, assignmentParts? line = some (name, expression) ∧
        ((¬ IsName name ∧ e = .invalidName name) ∨
          (IsName name ∧ (evaluate env expression).result = .error e)) := by
  cases hp : assignmentParts? line with
  | none =>
    have hsign : '=' ∉ line.toList :=
      splitAssignment?_eq_none_iff.1 (Option.map_eq_none_iff.1 hp)
    rw [assign_of_no_parts hp]
    simp [Step.error, hsign, eq_comm]
  | some p =>
    obtain ⟨name, expression⟩ := p
    have hsign : '=' ∈ line.toList := by
      obtain ⟨left, right, ⟨hline, -⟩, -⟩ := assignmentParts?_eq_some_iff.1 hp
      rw [hline]
      exact List.mem_append_right _ List.mem_cons_self
    rw [assign_of_parts hp, assignTo_result_eq_error_iff]
    simp [hsign]

end Assign

/-! ## Lines with an equals sign -/

section Line
variable {env : Environment} {line : String} {b : Binding}

theorem result_of_assigned {s : Step Reply} (h : s.assigned? = some b) :
    s.result = .ok (.assigned b.1 b.2) := by
  unfold Step.assigned? at h
  split at h
  · rename_i name value hr
    cases h
    exact hr
  · cases h

variable [PatternCompiler]

theorem respond_of_equals (h : '=' ∈ line.toList) : respond env line =
    (assign env (String.ofList (trim line.toList))).map fun b => .assigned b.1 b.2 := by
  have hmem : '=' ∈ trim line.toList := (mem_trim_iff (by decide)).2 h
  rcases respond_forms env line with ⟨-, hn, -⟩ | ⟨-, hn, -⟩ | ⟨-, -, hr⟩ | ⟨-, hn, -⟩
  · exact absurd hmem hn
  · exact absurd hmem hn
  · exact hr
  · exact absurd hmem hn

theorem assigned?_of_no_equals (h : '=' ∉ line.toList) : (respond env line).assigned? = none := by
  have hmem : '=' ∉ trim line.toList := by rwa [mem_trim_iff (by decide)]
  rcases respond_forms env line with
    ⟨-, -, hr⟩ | ⟨-, -, reply, hreply, hr⟩ | ⟨-, he, -⟩ | ⟨-, -, hr⟩
  · rw [hr]
    rfl
  · rw [hr, assigned?_value hreply]
  · exact absurd he hmem
  · rw [hr, assigned?_map_value]

/-- A line binds a name where that name is all that stands before its first equals sign, and the
rest has a value. -/
theorem assigned?_eq_some_iff : (respond env line).assigned? = some b ↔
    ∃ expression, assignmentParts? line = some (b.1, expression) ∧ IsName b.1 ∧
      (evaluate env expression).result = .ok b.2 := by
  by_cases h : '=' ∈ line.toList
  · rw [← assignmentParts?_trim line, ← assign_result_eq_ok_iff, Step.assigned?,
      respond_of_equals h, Step.map]
    cases (assign env (String.ofList (trim line.toList))).result with
    | ok a => simp [Except.map]
    | error e => simp [Except.map]
  · rw [assigned?_of_no_equals h, assignmentParts?, splitAssignment?_eq_none_iff.2 h]
    simp

theorem environment_of_assigned (h : (respond env line).assigned? = some b) :
    ∃ hn : IsName b.1, (respond env line).environment = env.insert b.1 hn b.2 := by
  rcases respond_cases env line with ⟨hnone, -⟩ | ⟨name, hn, value, ha, he⟩
  · rw [h] at hnone
    cases hnone
  · rw [h] at ha
    cases ha
    exact ⟨hn, he⟩

end Line

end LineCalculator

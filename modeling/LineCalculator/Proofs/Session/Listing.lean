import LineCalculator.Proofs.Decimal.Pointed
import LineCalculator.Proofs.Session.Blanks
import LineCalculator.Proofs.Substitution.Mention
import LineCalculator.Proofs.Substitution.Parentheses
import LineCalculator.Proofs.Substitution.Rewriting
import LineCalculator.Proofs.Text.Lines
/-! # The list of bindings as a script

Every line of the printed list of bindings is an assignment that makes the binding again, whatever
else is bound by then. So the lines restore the bindings, in whichever order they are given.

* `evaluate_pointed`: the text of a moderate value has that value.
* `assigned?_bindingLine`: a line of the list makes its binding.
* `results_bindingLines`, `assignments_bindingLines`: so does each of many such lines.
* `lines_display`: the lines of the list.
* `listing_replayed`: the bindings after the lines of the list in any order.
-/

namespace LineCalculator
set_option autoImplicit false
open Text Expression Substitution

/-! ## Values as expressions -/

section Value
variable {x : Float}

/-- A numeral, with a sign in front of it or not. -/
def signed (negative : Bool) (n : Numeral) : FactorTree :=
  if negative then .sign .minus (.number n) else .number n

theorem spells_signed (negative : Bool) (n : Numeral) :
    Spells tokenKind ((signed negative n).lexemes.map Lexeme.text)
      (if negative then '-' :: n.text else n.text) := by
  have hn : Spells tokenKind [n.text] n.text := by
    have h : Spells tokenKind [n.text] (n.text ++ []) :=
      (spellsBefore_numeral (Apart.nil_right tokenKind n.text)).spells (.blanks 0)
    rwa [List.append_nil] at h
  cases negative with
  | true => exact spells_mark hn (by decide)
  | false => exact hn

theorem value_signed (v : String → Float) (negative : Bool) {n : Numeral} {r : Nat}
    (hr : r < Double.infinityRank) (h : n.decimal.toFloat = Double.ofRank false r) :
    (signed negative n).value v = .value (Double.ofRank negative r) := by
  have hn : (FactorTree.number n).value v = .value (Double.ofRank false r) := by
    rw [FactorTree.value, h]
  cases negative with
  | true => exact (value_negative v hn).trans (by rw [Double.neg_ofRank false hr.le]; rfl)
  | false => exact hn

theorem resolved_signed (env : Environment) (negative : Bool) (n : Numeral) :
    ∀ l ∈ (signed negative n).lexemes, l.Resolved env := by
  cases negative with
  | true => simp [signed, FactorTree.lexemes, Sign.mark, Lexeme.Resolved]
  | false => simp [signed, FactorTree.lexemes, Lexeme.Resolved]

theorem depth_signed_le (negative : Bool) (n : Numeral) : (signed negative n).depth ≤ 2 := by
  cases negative with
  | true => exact Nat.le_refl 2
  | false => exact Nat.le_succ 1

theorem read_pointed (env : Environment) (h : IsModerate x) :
    read env (Layout.pointed.write x) = .value x := by
  obtain ⟨n, hn, hwrite⟩ := h.exists_numeral
  let e : SumTree := .term (.factor (signed (Double.isNegative x) n))
  have hspelled : Spells tokenKind (e.lexemes.map Lexeme.text) (Layout.pointed.write x) :=
    hwrite ▸ spells_signed _ n
  have hresolved : ∀ l ∈ e.lexemes, l.Resolved env := resolved_signed env _ n
  have htext := tokenTexts_of_lexemes hspelled e.proper_lexemes hresolved
  have hvalue : e.value env.lookup = .value x := by
    have hsigned := value_signed env.lookup (Double.isNegative x) h.rank_lt hn
    rwa [Double.ofRank_isNegative_rank h.isNaN] at hsigned
  rw [read_eq_value htext hresolved ((depth_signed_le _ n).trans (by decide)), hvalue]
  rfl

/-- The text of a moderate value is made of digits, points and signs. -/
theorem mem_write_pointed (h : IsModerate x) {c : Char} (hc : c ∈ Layout.pointed.write x) :
    Decimal.isNumeralChar c = true ∨ c = '-' := by
  obtain ⟨n, -, hwrite⟩ := h.exists_numeral
  rw [hwrite] at hc
  split at hc
  · rcases List.mem_cons.1 hc with rfl | hc
    · exact .inr rfl
    · exact .inl (n.isNumeral.1 c hc)
  · exact .inl (n.isNumeral.1 c hc)

theorem evaluate_pointed [PatternCompiler] {env : Environment} (hsearch : Searchable env)
    (h : IsModerate x) : (evaluate env (Layout.pointed.text x)).result = .ok x := by
  have hletter : ∀ c ∈ Layout.pointed.write x, c.isAlpha = false := by
    intro c hc
    rcases mem_write_pointed h hc with hn | rfl
    · exact isAlpha_of_isNumeralChar hn
    · rfl
  have hkept := (unbound_of_no_letter env hletter).substitute_eq
  rw [evaluate_eq_ok_iff, Layout.text, String.toList_ofList, hkept, read_pointed env h]
  exact ⟨hsearch, rfl⟩

end Value

/-! ## Bindings as lines -/

/-- A binding whose line makes it again. -/
def IsListable (b : Binding) : Prop := IsName b.1 ∧ IsModerate b.2

section Line
variable {b : Binding} (h : IsListable b)
include h

theorem isBlank_of_mem_pointed {c : Char} (hc : c ∈ Layout.pointed.write b.2) :
    isBlank c = false := by
  rcases mem_write_pointed h.2 hc with hn | rfl
  · by_cases hp : c = '.'
    · rw [hp]
      decide
    · exact isBlank_of_isDigit (isDigit_of_isNumeralChar hn hp)
  · decide

theorem assignmentParts?_bindingLine :
    assignmentParts? (Reply.bindingLine b) = some (b.1, Layout.pointed.text b.2) := by
  have hname : '=' ∉ b.1.toList := fun hm => absurd (h.1.2 _ hm) (by decide)
  have hempty : AllBlank "" := by decide
  have hspace : AllBlank " " := by decide
  have hline : Reply.bindingLine b =
      "" ++ b.1 ++ " " ++ "=" ++ " " ++ Layout.pointed.text b.2 ++ "" := by
    have hsign : " = " = " " ++ "=" ++ " " := by decide
    rw [Reply.bindingLine, hsign, String.empty_append, String.append_empty]
    simp only [String.append_assoc]
  rw [hline, assignmentParts?_padded _ hname hempty hspace hspace hempty,
    trim_eq_self fun c hc => isBlank_of_isAlpha (h.1.2 c hc), String.ofList_toList, Layout.text,
    String.toList_ofList, trim_eq_self fun c hc => isBlank_of_mem_pointed h hc]

theorem assigned?_bindingLine [PatternCompiler] {env : Environment} (hsearch : Searchable env) :
    (respond env (Reply.bindingLine b)).assigned? = some b :=
  assigned?_eq_some_iff.2 ⟨_, assignmentParts?_bindingLine h, h.1, evaluate_pointed hsearch h.2⟩

theorem bindingLine_in_one_line : (Reply.bindingLine b).toList ≠ [] ∧
    '\n' ∉ (Reply.bindingLine b).toList ∧ '\r' ∉ (Reply.bindingLine b).toList := by
  have hvalue {c : Char} (hc : c ∈ ['\n', '\r']) : c ∉ Layout.pointed.write b.2 := by
    intro hm
    rcases mem_write_pointed h.2 hm with hn | rfl
    · have hnone : ∀ c ∈ ['\n', '\r'], Decimal.isNumeralChar c = false := by decide
      rw [hnone c hc] at hn
      cases hn
    · exact absurd hc (by decide)
  have hname {c : Char} (hc : c ∈ ['\n', '\r']) : c ∉ b.1.toList := by
    intro hm
    have hnone : ∀ c ∈ ['\n', '\r'], c.isAlpha = false := by decide
    have halpha := h.1.2 c hm
    rw [hnone c hc] at halpha
    cases halpha
  have hline : (Reply.bindingLine b).toList =
      b.1.toList ++ [' ', '=', ' '] ++ Layout.pointed.write b.2 := by
    have hsign : " = ".toList = [' ', '=', ' '] := by decide
    rw [Reply.bindingLine, String.toList_append, String.toList_append, hsign, Layout.text,
      String.toList_ofList]
  rw [hline]
  refine ⟨by simp, ?_, ?_⟩
  · simp [hname (c := '\n') (by decide), hvalue (c := '\n') (by decide)]
  · simp [hname (c := '\r') (by decide), hvalue (c := '\r') (by decide)]

end Line

/-! ## Many lines -/

theorem lines_display {bs : List Binding} (h : ∀ b ∈ bs, IsListable b) :
    (Text.lines (Reply.bindings bs).display.toList).map String.ofList =
      bs.map Reply.bindingLine := by
  have hlines : (Reply.bindings bs).display.toList =
      ['\n'].intercalate ((bs.map Reply.bindingLine).map String.toList) :=
    String.toList_intercalate
  rw [hlines, lines_intercalate]
  · rw [List.map_map]
    refine (List.map_congr_left fun l _ => ?_).trans (List.map_id _)
    exact String.ofList_toList
  · intro l hl
    rw [List.map_map, List.mem_map] at hl
    obtain ⟨b, hb, rfl⟩ := hl
    exact bindingLine_in_one_line (h b hb)

section
variable [PatternCompiler]

/-- Each of the names has a pattern of its own. -/
def HavePatterns (bs : List Binding) : Prop := ∀ b ∈ bs, Compiles [b.1]

theorem havePatterns_empty : HavePatterns Environment.empty.bindings := by
  intro b hb
  cases hb

theorem HavePatterns.after {env : Environment} {b : Binding} {line : String}
    (hb : (respond env line).assigned? = some b) (h : Compiles [b.1])
    (henv : HavePatterns env.bindings) :
    HavePatterns (respond env line).environment.bindings := by
  obtain ⟨hn, he⟩ := environment_of_assigned hb
  rw [he]
  intro a ha
  rcases Binding.eq_or_mem_of_mem_insert ha with rfl | ha
  · exact h
  · exact henv a ha

section Lines
variable {bs : List Binding} {env : Environment} (h : ∀ b ∈ bs, IsListable b)
  (henv : HavePatterns env.bindings) (hbs : HavePatterns bs.dropLast)
include h henv hbs

/-- No line but the last one adds a name without a pattern, so that each of them finds the names
that the ones before it bound. -/
theorem steps_bindingLines :
    List.Forall₂ (fun s b => s.assigned? = some b)
      (steps env (bs.map Reply.bindingLine)) bs := by
  induction bs generalizing env with
  | nil => exact .nil
  | cons b bs ih =>
    obtain ⟨hb, hrest⟩ := List.forall_mem_cons.1 h
    have hassigned := assigned?_bindingLine hb (.of_forall henv)
    cases bs with
    | nil => exact .cons hassigned .nil
    | cons c bs =>
      obtain ⟨hpattern, hbs⟩ := List.forall_mem_cons.1 hbs
      exact .cons hassigned (ih hrest (henv.after hassigned hpattern) hbs)

theorem assignments_bindingLines : assignments env (bs.map Reply.bindingLine) = bs := by
  have hmap : (steps env (bs.map Reply.bindingLine)).map Step.assigned? = bs.map some := by
    rw [← List.forall₂_eq_eq_eq, List.forall₂_map_left_iff, List.forall₂_map_right_iff]
    exact steps_bindingLines h henv hbs
  rw [assignments, ← Function.id_comp Step.assigned?, ← List.filterMap_map, hmap,
    List.filterMap_map]
  exact List.filterMap_some

theorem results_bindingLines :
    (steps env (bs.map Reply.bindingLine)).map Step.result =
      bs.map fun b => .ok (.assigned b.1 b.2) := by
  rw [← List.forall₂_eq_eq_eq, List.forall₂_map_left_iff, List.forall₂_map_right_iff]
  exact (steps_bindingLines h henv hbs).imp fun s b => result_of_assigned

end Lines

theorem afterLines_bindingLines {env : Environment} {bs : List Binding}
    (hperm : bs.Perm env.bindings) (h : ∀ b ∈ bs, IsListable b)
    (hbs : HavePatterns bs.dropLast) :
    afterLines .empty (bs.map Reply.bindingLine) = env := by
  refine Environment.ext_get? fun name => ?_
  have hrev : env.bindings.Perm bs.reverse := hperm.symm.trans bs.reverse_perm.symm
  rw [Environment.get?, bindings_afterLines, assignments_bindingLines h havePatterns_empty hbs,
    Binding.find?_overwrite, ← Binding.find?_perm hrev env.pairwise_ne]
  exact Option.or_none

end

end LineCalculator

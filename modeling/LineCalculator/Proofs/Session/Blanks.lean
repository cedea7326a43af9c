import LineCalculator.Proofs.Session.Atomicity
/-! # Blanks around a line and its parts

A line is trimmed before it is told apart, and so are the two sides of an assignment. Blanks of any
kind at these places change neither the answer nor the bindings, also where nothing else stands
there. In an expression only the space may stand between tokens; any other blank spoils it.

* `AllBlank s`: there is nothing but blanks.
* `respond_surrounded`: blanks around a line.
* `assignmentParts?_padded`, `respond_padded`: blanks around the two sides of an assignment.
* `isForeign_of_isBlank`: no blank but the space stands in an expression.
* `blanks_are_insignificant`: all of these.
-/

namespace LineCalculator
set_option autoImplicit false
open Text Substitution

def AllBlank (s : String) : Prop := ∀ c ∈ s.toList, isBlank c = true

instance : DecidablePred AllBlank := fun s =>
  List.decidableBAll (fun c => isBlank c = true) s.toList

/-! ## Blanks that are trimmed -/

theorem trim_surrounded {before after : List Char} (text : List Char)
    (hbefore : ∀ c ∈ before, isBlank c = true) (hafter : ∀ c ∈ after, isBlank c = true) :
    trim (before ++ text ++ after) = trim text := by
  rw [trim_append_right hafter, trim_append_left hbefore]

theorem respond_surrounded [PatternCompiler] (env : Environment) (line : String)
    {before after : String} (hbefore : AllBlank before) (hafter : AllBlank after) :
    respond env (before ++ line ++ after) = respond env line := by
  rw [respond, String.toList_append, String.toList_append, trim_surrounded _ hbefore hafter]
  rfl

/-- Two lines with the same name and the same expression are answered alike. -/
theorem respond_congr_parts [PatternCompiler] (env : Environment)
    {line line' name expression : String}
    (h : assignmentParts? line = some (name, expression))
    (h' : assignmentParts? line' = some (name, expression)) :
    respond env line = respond env line' := by
  have hequals {l : String} (hl : assignmentParts? l = some (name, expression)) :
      '=' ∈ l.toList := by
    obtain ⟨left, right, ⟨hline, -⟩, -⟩ := assignmentParts?_eq_some_iff.1 hl
    rw [hline]
    exact List.mem_append_right _ List.mem_cons_self
  rw [respond_of_equals (hequals h), respond_of_equals (hequals h')]
  rw [← assignmentParts?_trim] at h h'
  rw [assign_of_parts h, assign_of_parts h']

section Padded
variable {name w₁ w₂ w₃ w₄ : String} (expression : String) (hname : '=' ∉ name.toList)
  (h₁ : AllBlank w₁) (h₂ : AllBlank w₂) (h₃ : AllBlank w₃) (h₄ : AllBlank w₄)
include hname h₁ h₂ h₃ h₄

theorem assignmentParts?_padded :
    assignmentParts? (w₁ ++ name ++ w₂ ++ "=" ++ w₃ ++ expression ++ w₄) =
      some (String.ofList (trim name.toList), String.ofList (trim expression.toList)) := by
  have hno {w : String} (hw : AllBlank w) : '=' ∉ w.toList := by
    intro hm
    exact absurd (hw '=' hm) (by decide)
  rw [assignmentParts?_eq_some_iff]
  refine ⟨w₁.toList ++ name.toList ++ w₂.toList, w₃.toList ++ expression.toList ++ w₄.toList,
    ⟨?_, ?_⟩, ?_, ?_⟩
  · simp
  · simp [hno h₁, hno h₂, hname]
  · rw [trim_surrounded _ h₁ h₂]
  · rw [trim_surrounded _ h₃ h₄]

theorem respond_padded [PatternCompiler] (env : Environment) :
    respond env (w₁ ++ name ++ w₂ ++ "=" ++ w₃ ++ expression ++ w₄) =
      respond env (name ++ "=" ++ expression) := by
  have hnone : AllBlank "" := by decide
  have hplain := assignmentParts?_padded expression hname hnone hnone hnone hnone
  simp only [String.empty_append, String.append_empty] at hplain
  exact respond_congr_parts env (assignmentParts?_padded expression hname h₁ h₂ h₃ h₄) hplain

end Padded

/-! ## Blanks in expressions -/

/-- The code points of the blanks. -/
def blankCodes : List Nat := blankRanges.flatMap fun r => List.range' r.1 (r.2 + 1 - r.1)

theorem toNat_mem_blankCodes {c : Char} (h : isBlank c = true) : c.toNat ∈ blankCodes := by
  obtain ⟨r, hr, hc⟩ := List.any_eq_true.1 h
  rw [Bool.and_eq_true, decide_eq_true_iff, decide_eq_true_iff] at hc
  refine List.mem_flatMap.2 ⟨r, hr, List.mem_range'_1.2 ?_⟩
  omega

theorem isForeign_of_isBlank {c : Char} (h : isBlank c = true) (hc : c ≠ ' ') : IsForeign c := by
  have hcodes : ∀ n ∈ blankCodes, n = 0x20 ∨ (isWord (Char.ofNat n) = false ∧
      Expression.tokenKind (Char.ofNat n) = none ∧
      Char.ofNat n ∉ [' ', '+', '-', '*', '/', '(', ')']) := by decide +kernel
  have hforeign := hcodes c.toNat (toNat_mem_blankCodes h)
  rw [Char.ofNat_toNat] at hforeign
  refine hforeign.resolve_left fun hn => hc ?_
  rw [← Char.ofNat_toNat c, hn]

/-- Blanks around a line, and in a line with an equals sign around what stands before and after the
first one, change neither the reply or the error nor the bindings afterwards. The reader of
expressions is not so lenient: a text with any other blank than the space in it has no value. -/
theorem blanks_are_insignificant [PatternCompiler] (env : Environment) :
    (∀ line w₁ w₂ : String, AllBlank w₁ → AllBlank w₂ →
      respond env (w₁ ++ line ++ w₂) = respond env line) ∧
    (∀ name expression w₁ w₂ w₃ w₄ : String, '=' ∉ name.toList →
      AllBlank w₁ → AllBlank w₂ → AllBlank w₃ → AllBlank w₄ →
      respond env (w₁ ++ name ++ w₂ ++ "=" ++ w₃ ++ expression ++ w₄) =
        respond env (name ++ "=" ++ expression)) ∧
    ∀ (text : List Char) (c : Char), c ∈ text → isBlank c = true → c ≠ ' ' →
      ∀ x, (Expression.read env text).result ≠ .ok x := by
  refine ⟨fun line w₁ w₂ h₁ h₂ => respond_surrounded env line h₁ h₂,
    fun name expression w₁ w₂ w₃ w₄ hname h₁ h₂ h₃ h₄ => ?_, fun text c hmem hb hc => ?_⟩
  · exact respond_padded expression hname h₁ h₂ h₃ h₄ env
  · exact read_ne_ok_of_foreign (isForeign_of_isBlank hb hc) hmem

attribute [local instance] PatternCompiler.bySize in
/-- A tab, a no-break space, an em space, an ideographic space and the end of a line. -/
theorem blanks_are_insignificant_assignment :
    ('=' ∉ "x".toList ∧ AllBlank "\t\u00a0" ∧ AllBlank "\u2003" ∧ AllBlank "\u3000" ∧
      AllBlank " \r\n") ∧
    respond .standard ("\t\u00a0" ++ "x" ++ "\u2003" ++ "=" ++ "\u3000" ++ "2 * PI" ++ " \r\n") =
      respond .standard ("x" ++ "=" ++ "2 * PI") := by
  have h₁ : AllBlank "\t\u00a0" := by decide
  have h₂ : AllBlank "\u2003" := by decide
  have h₃ : AllBlank "\u3000" := by decide
  have h₄ : AllBlank " \r\n" := by decide
  have hname : '=' ∉ "x".toList := by decide
  exact ⟨⟨hname, h₁, h₂, h₃, h₄⟩,
    (blanks_are_insignificant .standard).2.1 "x" "2 * PI" _ _ _ _ hname h₁ h₂ h₃ h₄⟩

end LineCalculator
